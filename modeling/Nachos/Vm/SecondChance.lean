import Nachos.Vm.Views

/-! Second chance: both searches end, and all they change are use bits. -/

namespace Nachos.Vm

section Loop

variable {σ : Type} {entryAt : σ → Nat → Option TranslationEntry} {reset : σ → Nat → σ}
  {range : Nat}

/-- Whatever relates a table to the same table with a use bit reset relates start and end. -/
theorem secondChanceLoop_related (Rel : σ → σ → Prop) (refl : ∀ state, Rel state state)
    (trans : ∀ first second third, Rel first second → Rel second third → Rel first third)
    (resets : ∀ state index, Rel state (reset state index)) :
    ∀ {fuel state index after stop},
      secondChanceLoop entryAt reset range fuel state index = .ok (after, stop) →
      Rel state after ∧ (entryAt after stop).isSome := by
  intro fuel
  -- The fuel counts the entries visited, and each visit resets at most one bit.
  induction fuel with
  | zero => intro state index after stop found; simp [secondChanceLoop] at found
  | succ fuel ih =>
    intro state index after stop found
    rw [secondChanceLoop] at found
    cases located : entryAt state index with
    | none => simp [located] at found
    | some entry =>
      simp only [located] at found
      split at found
      · split at found
        · obtain ⟨related, stopped⟩ := ih found
          refine ⟨?_, stopped⟩
          split at related
          · exact trans _ _ _ (resets state index) related
          · exact related
        · simp at found
      · simp only [Except.ok.injEq, Prod.mk.injEq] at found
        obtain ⟨rfl, rfl⟩ := found
        exact ⟨refl state, by simp [located]⟩

/-- An entry that is not both used and valid is taken at once. -/
theorem secondChanceLoop_here {fuel : Nat} {state : σ} {index : Nat} {entry : TranslationEntry}
    (located : entryAt state index = some entry) (free : (entry.use && entry.valid) = false) :
    secondChanceLoop entryAt reset range (fuel + 1) state index = .ok (state, index) := by
  simp [secondChanceLoop, located, free]

/--
The search ends when every skipped entry makes a measure smaller.

Entries in use must have a frame, since only then does skipping them reset their use bit.
-/
theorem secondChanceLoop_ends (Good : σ → Prop) (measure : σ → Nat)
    (defined : ∀ state index, Good state → index < range → (entryAt state index).isSome)
    (skips : ∀ state index entry, Good state → entryAt state index = some entry →
      (entry.use && entry.valid) = true → entry.physicalPage ≠ noPhysicalPage ∧
        Good (reset state index) ∧ measure (reset state index) < measure state) :
    ∀ {fuel state index}, Good state → index < range → measure state < fuel →
      ∃ result, secondChanceLoop entryAt reset range fuel state index = .ok result := by
  intro fuel
  induction fuel with
  | zero => intro state index _ _ enough; omega
  | succ fuel ih =>
    intro state index good inside enough
    obtain ⟨entry, located⟩ := Option.isSome_iff_exists.mp (defined state index good inside)
    cases chance : entry.use && entry.valid with
    | false => exact ⟨_, secondChanceLoop_here located chance⟩
    | true =>
      obtain ⟨framed, still, smaller⟩ := skips state index entry good located chance
      have next : (index + 1) % range < range := Nat.mod_lt _ (by omega)
      obtain ⟨result, found⟩ := ih still next (by omega)
      exact ⟨result, by simpa [secondChanceLoop, located, chance, inside, framed] using found⟩

end Loop

/-- Two TLBs that differ in use bits at most. -/
def SameTlbButUse (before after : List TranslationEntry) : Prop :=
  after.map clearUse = before.map clearUse

/-- Resetting use bits changes no slot beyond its use bit. -/
theorem SameTlbButUse.modify (tlb : List TranslationEntry) (slot : Nat) :
    SameTlbButUse tlb (tlb.modify slot clearUse) := by
  apply List.ext_getElem?
  intro other
  simp only [List.getElem?_map, List.getElem?_modify]
  split
  · cases tlb[other]? <;> simp [clearUse]
  · cases tlb[other]? <;> simp

/-- The TLB has as many slots as before. -/
theorem SameTlbButUse.length {before after : List TranslationEntry}
    (same : SameTlbButUse before after) : after.length = before.length := by
  have lengths := congrArg List.length same
  simpa using lengths

/-- Every slot found afterwards was there before, up to its use bit. -/
theorem SameTlbButUse.slot {before after : List TranslationEntry}
    (same : SameTlbButUse before after) {slot : Nat} {cached : TranslationEntry}
    (found : after[slot]? = some cached) :
    ∃ old, before[slot]? = some old ∧ clearUse old = clearUse cached := by
  have slots := congrArg (fun entries => entries[slot]?) same
  simp only [List.getElem?_map, found, Option.map_some] at slots
  simpa using slots.symm

/-- The TLB search picks one of the slots and changes use bits only. -/
theorem secondChanceTlb_spec {tlb after : List TranslationEntry} {index slot : Nat}
    (found : secondChanceTlb tlb index = .ok (after, slot)) :
    SameTlbButUse tlb after ∧ slot < tlb.length := by
  obtain ⟨same, stopped⟩ := secondChanceLoop_related SameTlbButUse (fun _ => rfl)
    (fun _ _ _ left right => right.trans left) SameTlbButUse.modify found
  refine ⟨same, ?_⟩
  obtain ⟨entry, located⟩ := Option.isSome_iff_exists.mp stopped
  rw [← same.length]
  exact (List.getElem?_eq_some_iff.mp located).1

/-- Resetting the use bit of an entry in use leaves one fewer entry in use. -/
theorem countP_modify_lt {tlb : List TranslationEntry} {slot : Nat} {entry : TranslationEntry}
    (located : tlb[slot]? = some entry) (chance : (entry.use && entry.valid) = true) :
    (tlb.modify slot clearUse).countP (fun e => e.use && e.valid) <
      tlb.countP (fun e => e.use && e.valid) := by
  induction tlb generalizing slot with
  | nil => simp at located
  | cons head rest ih =>
    cases slot with
    | zero =>
      simp only [List.getElem?_cons_zero, Option.some.injEq] at located
      subst located
      simp only [List.modify_zero_cons, List.countP_cons, chance, if_true]
      simp [clearUse]
    | succ slot =>
      have smaller := ih (by simpa using located)
      simp only [List.modify_succ_cons, List.countP_cons]
      omega

/-- The TLB search ends whenever its valid slots all name a frame. -/
theorem secondChanceTlb_ends {tlb : List TranslationEntry} {index : Nat}
    (length : tlb.length = tlbSize) (inside : index < tlbSize)
    (framed : ∀ entry ∈ tlb, entry.valid = true → entry.physicalPage ≠ noPhysicalPage) :
    ∃ after slot, secondChanceTlb tlb index = .ok (after, slot) := by
  -- The measure is the number of slots in use, which is at most the number of slots.
  let Good : List TranslationEntry → Prop := fun entries => entries.length = tlbSize ∧
    ∀ entry ∈ entries, entry.valid = true → entry.physicalPage ≠ noPhysicalPage
  let inUse : List TranslationEntry → Nat := fun entries =>
    entries.countP fun entry => entry.use && entry.valid
  have few : inUse tlb < tlbSize + 1 := by
    have bound : inUse tlb ≤ tlb.length := List.countP_le_length
    omega
  obtain ⟨⟨after, slot⟩, found⟩ :
      ∃ result, secondChanceTlb tlb index = .ok result := by
    refine secondChanceLoop_ends Good inUse ?_ ?_ ⟨length, framed⟩ inside few
    · intro entries position good within
      rw [List.getElem?_eq_getElem (by rw [good.1]; exact within)]
      rfl
    · intro entries position entry good located chance
      have valid : entry.valid = true := by simp_all
      refine ⟨good.2 entry (List.mem_of_getElem? located) valid, ⟨?_, ?_⟩,
        countP_modify_lt located chance⟩
      · rw [List.length_modify]
        exact good.1
      · intro other within ok
        obtain ⟨place, there⟩ := List.getElem?_of_mem within
        obtain ⟨old, before, same⟩ := (SameTlbButUse.modify entries position).slot there
        obtain ⟨-, pages, valids, -⟩ := clearUse_inj same
        rw [← pages]
        exact good.2 old (List.mem_of_getElem? before) (by rw [valids, ok])
  exact ⟨after, slot, found⟩

/-- A search over page tables changes use bits only. -/
theorem secondChanceTable_spec {refs : List PageRef} {table after : InvertedTable}
    {index stop : Nat} (found : secondChanceTable refs table index = .ok (after, stop)) :
    InvertedTable.SameButUse table after := by
  refine (secondChanceLoop_related InvertedTable.SameButUse
    InvertedTable.SameButUse.refl (fun _ _ _ left right => left.trans right) ?_ found).1
  intro table position
  split
  · exact InvertedTable.SameButUse.refl table
  · exact InvertedTable.SameButUse.clear table _

/-- The page that second chance would evict, starting from an index. -/
def InvertedTable.nextVictim (table : InvertedTable) (index : Nat) : Option PageRef :=
  match secondChanceTable table.residentRefs table index with
  | .ok (_, stop) => table.residentRefs[stop]?
  | .error _ => none

/-- The chosen victim is a page in memory, and choosing it changes use bits only. -/
theorem Kernel.chooseVictim_spec {kernel after : Kernel} {victim : PageRef}
    (chosen : kernel.chooseVictim = .ok (victim, after)) :
    ∃ table index, after = { kernel with invertedTable := table, physicalIndex := index } ∧
      InvertedTable.SameButUse kernel.invertedTable table ∧
      kernel.invertedTable.nextVictim kernel.physicalIndex = some victim ∧
      ∃ out, kernel.invertedTable.entry victim = some out ∧
        out.physicalPage ≠ noPhysicalPage := by
  unfold Kernel.chooseVictim at chosen
  obtain ⟨refs, collected, chosen⟩ := Runs.bind_eq_ok.mp chosen
  obtain ⟨⟨table, index⟩, searched, chosen⟩ := Runs.bind_eq_ok.mp chosen
  have same := secondChanceTable_spec searched
  have listed : refs = kernel.invertedTable.residentRefs := by
    unfold Kernel.getPhysicalPageTable at collected
    split at collected <;> simp at collected
    exact collected.symm
  cases named : refs[index]? with
  | none => simp [named] at chosen
  | some ref =>
    simp only [named, pure, Except.pure, Except.ok.injEq, Prod.mk.injEq] at chosen
    obtain ⟨rfl, rfl⟩ := chosen
    subst listed
    have member := List.mem_of_getElem? named
    refine ⟨table, index, rfl, same, ?_, InvertedTable.mem_residentRefs.mp member⟩
    simp [InvertedTable.nextVictim, searched, named]

end Nachos.Vm
