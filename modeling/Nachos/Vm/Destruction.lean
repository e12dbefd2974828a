import Nachos.Vm.Ownership

/-! What a dead process leaves behind. -/

namespace Nachos.Vm

/-- No action is ruled out. -/
def Unrestricted (_ : Kernel) (_ : Action) : Prop := True

instance (kernel : Kernel) (action : Action) : Decidable (Unrestricted kernel action) :=
  .isTrue trivial

/-- The address space of a thread is gone without a trace, and nothing else has changed. -/
structure LeavesNothing (before after : Kernel) (thread : Thread) : Prop where
  unstored : ∀ page entry, before.invertedTable.entry ⟨thread, page⟩ = some entry →
    after.backingStore.copies (before.invertedTable.entryAddress ⟨thread, page⟩) = []
  forgotten : thread ∉ after.invertedTable.getKeys
  freed : ∀ page (number : Nat), before.invertedTable.frameOf ⟨thread, page⟩ = some (number : Int) →
    after.physicalPageMap.testBit number = false
  entries : ∀ ref, ref.thread ≠ thread →
    after.invertedTable.entry ref = before.invertedTable.entry ref
  frames : ∀ ref (number : Nat), ref.thread ≠ thread →
    before.invertedTable.frameOf ref = some (number : Int) →
    after.frame number = before.frame number ∧
      after.physicalPageMap.testBit number = before.physicalPageMap.testBit number
  stored : ∀ ref entry, ref.thread ≠ thread → before.invertedTable.entry ref = some entry →
    after.backingStore.copies (before.invertedTable.entryAddress ref) =
      before.backingStore.copies (before.invertedTable.entryAddress ref)

/--
The address space of a thread is in a state that its destructor cleans up.

A page that is out of memory, valid and dirty has at most one stored copy, any other page has none,
and a frame that another address space names as well is already clear and empty.
-/
structure Tidy (kernel : Kernel) (thread : Thread) : Prop where
  copies : ∀ page entry, kernel.invertedTable.entry ⟨thread, page⟩ = some entry →
    (kernel.backingStore.copies (kernel.invertedTable.entryAddress ⟨thread, page⟩)).length ≤
      if discards entry then 1 else 0
  unshared : ∀ page ref (number : Nat), ref.thread ≠ thread →
    kernel.invertedTable.frameOf ⟨thread, page⟩ = some (number : Int) →
    kernel.invertedTable.frameOf ref = some (number : Int) →
    kernel.frame number = zeroPage ∧ kernel.physicalPageMap.testBit number = false

section Destroyed

variable {before after : Kernel} {thread : Thread}

/-- Pages of a destroyed address space lose one copy if they are discarded, and none otherwise. -/
theorem Destroyed.copies (sound : Sound before) (destroyed : Destroyed before after thread)
    {ref : PageRef} {entry : TranslationEntry}
    (found : before.invertedTable.entry ref = some entry) :
    after.backingStore.copies (before.invertedTable.entryAddress ref) =
      if ref.thread = thread ∧ discards entry = true then
        (before.backingStore.copies (before.invertedTable.entryAddress ref)).tail
      else before.backingStore.copies (before.invertedTable.entryAddress ref) := by
  obtain ⟨owner, page⟩ := ref
  split
  · rename_i both
    obtain ⟨rfl, chosen⟩ := both
    exact (destroyed.discarded page (clearUse entry) (view_of_entry found) chosen).2
  · rename_i left
    refine destroyed.stored _ ?_
    intro other gone seen chosen same
    -- Equal addresses mean equal pages, and this page is not discarded.
    have equal := sound.apart _ _ _ _ seen (view_of_entry found) same
    simp only [PageRef.mk.injEq] at equal
    obtain ⟨rfl, rfl⟩ := equal
    rw [view_of_entry found, Option.some.injEq] at seen
    subst seen
    exact left ⟨rfl, chosen⟩

/-- The destructor leaves nothing behind exactly in a tidy state. -/
theorem Destroyed.leavesNothing_iff (sound : Sound before)
    (destroyed : Destroyed before after thread) :
    LeavesNothing before after thread ↔ Tidy before thread := by
  constructor
  · intro clean
    refine ⟨?_, ?_⟩
    · intro page entry found
      have none := clean.unstored page entry found
      rw [destroyed.copies sound found] at none
      by_cases chosen : discards entry = true
      · simp only [chosen, and_self, if_true] at none ⊢
        have lengths := congrArg List.length none
        simp only [List.length_tail, List.length_nil] at lengths
        omega
      · simp_all
    · intro page ref number other mine yours
      obtain ⟨frame, bit⟩ := clean.frames ref number other yours
      obtain ⟨zero, clear⟩ := destroyed.cleared number
        (InvertedTable.occupies_iff_frameOf.mpr ⟨page, mine⟩)
      exact ⟨by rw [← frame, zero], by rw [← bit, clear]⟩
  · intro tidy
    refine ⟨?_, ?_, ?_, ?_, ?_, ?_⟩
    · intro page entry found
      have few := tidy.copies page entry found
      rw [destroyed.copies sound found]
      by_cases chosen : discards entry = true
      · simp only [chosen, if_true] at few
        simp only [chosen, and_self, if_true]
        apply List.eq_nil_of_length_eq_zero
        rw [List.length_tail]
        omega
      · simp only [chosen] at few
        simpa [chosen] using few
    · rw [destroyed.keys]
      exact sound.distinct.not_mem_erase
    · intro page number mine
      exact (destroyed.cleared number (InvertedTable.occupies_iff_frameOf.mpr ⟨page, mine⟩)).2
    · intro ref other
      rw [destroyed.entries, if_neg other]
    · intro ref number other yours
      by_cases occupied : before.invertedTable.Occupies thread number
      · obtain ⟨page, mine⟩ := InvertedTable.occupies_iff_frameOf.mp occupied
        obtain ⟨zero, clear⟩ := tidy.unshared page ref number other mine yours
        obtain ⟨zero', clear'⟩ := destroyed.cleared number occupied
        exact ⟨by rw [zero, zero'], by rw [clear, clear']⟩
      · refine destroyed.kept number ?_ occupied
        rw [InvertedTable.frameOf_eq, Option.map_eq_some_iff] at yours
        obtain ⟨entry, seen, framed⟩ := yours
        rcases sound.framed ref entry seen with absent | ⟨number', framed', inside⟩
        · exact absurd (framed.symm.trans absent) (natCast_ne_noPhysicalPage number)
        · omega
    · intro ref entry other found
      rw [destroyed.copies sound found, if_neg]
      exact fun both => other both.1

end Destroyed

/-- In every reachable state the destructor returns, and it leaves nothing behind if tidy. -/
theorem destroy_leavesNothing_iff_tidy {kernel : Kernel} {thread : Thread}
    (reached : Runs.Reachable step Boot Unrestricted kernel)
    (running : kernel.currentThread = some thread) :
    ∃ after, kernel.destroy thread = .ok after ∧
      (LeavesNothing kernel after thread ↔ Tidy kernel thread) := by
  have sound := sound_of_reachable reached
  obtain ⟨after, destroyed⟩ : ∃ after, kernel.destroy thread = .ok after := by
    refine Kernel.destroy_ends sound.ready (sound.running thread running) ?_
    intro page entry seen chosen
    simp only [discards, Bool.and_eq_true, beq_iff_eq] at chosen
    exact sound.stored _ entry seen chosen.1.1 chosen.1.2
  exact ⟨after, destroyed,
    (Kernel.destroy_spec sound.bits sound.distinct destroyed).leavesNothing_iff sound⟩

/-- Do all pages of the thread have as many stored copies as their entries allow? -/
def fewCopies (kernel : Kernel) (thread : Thread) : Bool :=
  match kernel.invertedTable.get? thread with
  | none => true
  | some space => (List.range space.pageTable.length).all fun page =>
      (kernel.invertedTable.entry ⟨thread, page⟩).all fun entry =>
        (kernel.backingStore.copies (kernel.invertedTable.entryAddress ⟨thread, page⟩)).length ≤
          if discards entry then 1 else 0

/-- That is what a tidy address space asks for. -/
theorem copies_of_fewCopies {kernel : Kernel} {thread : Thread} {page : Nat}
    {entry : TranslationEntry} (few : fewCopies kernel thread = true)
    (found : kernel.invertedTable.entry ⟨thread, page⟩ = some entry) :
    (kernel.backingStore.copies (kernel.invertedTable.entryAddress ⟨thread, page⟩)).length ≤
      if discards entry then 1 else 0 := by
  obtain ⟨space, registered, located⟩ := Option.bind_eq_some_iff.mp found
  -- A page with an entry is one of those that have been looked at.
  have inside := (List.getElem?_eq_some_iff.mp located).1
  rw [fewCopies, registered] at few
  have here := List.all_eq_true.mp few page (List.mem_range.mpr inside)
  rw [found] at here
  simpa using here

/-- A thread that runs alone dies without a trace, with a page that it has written in the store. -/
theorem leavesNothing_after_scribbleAndEvict :
    ∃ kernel after, Runs.run step firstKernel scribbleAndEvict = .ok kernel ∧
      (kernel.backingStore.copies (kernel.invertedTable.entryAddress ⟨1, 0⟩)).length = 1 ∧
      kernel.destroy 1 = .ok after ∧ LeavesNothing kernel after 1 := by
  obtain ⟨kernel, ran, seen⟩ := Runs.exists_of_runsTo
    (show Runs.runsTo step firstKernel scribbleAndEvict (fun kernel =>
      kernel.currentThread == some 1 &&
        (kernel.backingStore.copies (kernel.invertedTable.entryAddress ⟨1, 0⟩)).length == 1 &&
        fewCopies kernel 1 && kernel.invertedTable.getKeys == [1]) = true by decide +kernel)
  simp only [Bool.and_eq_true, beq_iff_eq] at seen
  obtain ⟨⟨⟨current, stored⟩, few⟩, alone⟩ := seen
  have guarded : Runs.Guarded step Unrestricted firstKernel scribbleAndEvict := by decide +kernel
  obtain ⟨after, destroyed, exact_⟩ := destroy_leavesNothing_iff_tidy
    (Runs.Reachable.extend (.start firstKernel_boot) guarded ran) current
  refine ⟨kernel, after, ran, stored, destroyed, exact_.mpr ⟨?_, ?_⟩⟩
  · exact fun page entry found => copies_of_fewCopies few found
  · intro page ref number other _ yours
    -- There is no other thread to share a frame with.
    rw [InvertedTable.frameOf, Option.map_eq_some_iff] at yours
    obtain ⟨entry, found, -⟩ := yours
    obtain ⟨space, registered, -⟩ := Option.bind_eq_some_iff.mp found
    have member := (Map.mem_getKeys _ _).mpr ⟨space, registered⟩
    rw [alone, List.mem_singleton] at member
    exact absurd member other

/-- A page that was evicted clean keeps its copy in the backing store after its process dies. -/
theorem not_leavesNothing_after_pageOut :
    Boot firstKernel ∧ ∃ kernel after,
      Runs.run step firstKernel (fillFrames ++ visit 32) = .ok kernel ∧
        kernel.currentThread = some 1 ∧ kernel.destroy 1 = .ok after ∧
        ¬ LeavesNothing kernel after 1 := by
  refine ⟨firstKernel_boot, ?_⟩
  obtain ⟨kernel, ran, seen⟩ := Runs.exists_of_runsTo
    (show Runs.runsTo step firstKernel (fillFrames ++ visit 32) (fun kernel =>
      kernel.currentThread == some 1 && (kernel.invertedTable.entry ⟨1, 0⟩).isSome &&
        match kernel.destroy 1 with
        | .ok after => (after.backingStore.copies
            (kernel.invertedTable.entryAddress ⟨1, 0⟩)).length == 1
        | .error _ => false) = true by decide +kernel)
  simp only [Bool.and_eq_true, beq_iff_eq] at seen
  obtain ⟨⟨current, registered⟩, left⟩ := seen
  split at left
  · rename_i after destroyed
    refine ⟨kernel, after, ran, current, destroyed, ?_⟩
    intro clean
    obtain ⟨entry, found⟩ := Option.isSome_iff_exists.mp registered
    simp [clean.unstored 0 entry found] at left
  · simp at left

end Nachos.Vm
