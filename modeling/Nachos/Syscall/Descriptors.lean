import Nachos.Syscall.Effects

/-! The descriptors that are open on the host, and those that the table of files holds. -/

namespace Nachos.Syscall

variable {console : Nat} {main : Thread} {os after : Os} {env : Env} {thread : Thread}
  {request : Request} {action : Action}

/-- Every descriptor that is open on the host is in exactly one slot of the table. -/
structure Conserved (os : Os) : Prop where
  held : ∀ descriptor, descriptor ∈ os.descriptors ↔
    ∃ fd, os.fileTable.entry fd = some descriptor
  once : ∀ first second descriptor, os.fileTable.entry first = some descriptor →
    os.fileTable.entry second = some descriptor → first = second

/-- The host gives out only descriptors that are not open. -/
def Os.fresh (os : Os) : Action → Prop
  | .syscall request env => request.obtains = true → env.answer ≠ -1 →
    env.answer ∉ os.descriptors
  | _ => True

/-- The steps that lose a descriptor. -/
def Os.loses (os : Os) : Action → Prop
  | .syscall request env => os.misplaces env request
  | _ => False

/-- What does not touch the entries and the descriptors conserves them. -/
theorem Conserved.congr (conserved : Conserved os)
    (entries : after.fileTable.entry = os.fileTable.entry)
    (descriptors : after.descriptors = os.descriptors) : Conserved after := by
  constructor
  · rw [entries, descriptors]
    exact conserved.held
  · rw [entries]
    exact conserved.once

/-- A descriptor that is open on the host and in no slot is lost. -/
theorem not_conserved_of_leak {descriptor : Int} (conserved : Conserved os)
    (new : descriptor ∉ os.descriptors)
    (entries : after.fileTable.entry = os.fileTable.entry)
    (opened : descriptor ∈ after.descriptors) : ¬ Conserved after := by
  intro kept
  obtain ⟨fd, stored⟩ := (kept.held descriptor).mp opened
  rw [entries] at stored
  exact new ((conserved.held descriptor).mpr ⟨fd, stored⟩)

/-- A new descriptor in a free slot conserves. -/
theorem Conserved.insert {fd descriptor : Int} (conserved : Conserved os)
    (new : descriptor ∉ os.descriptors) (free : os.fileTable.entry fd = none)
    (entries : after.fileTable.entry = Function.update os.fileTable.entry fd (some descriptor))
    (descriptors : after.descriptors = insert descriptor os.descriptors) : Conserved after := by
  have unused : ∀ other, os.fileTable.entry other ≠ some descriptor := fun other stored =>
    new ((conserved.held descriptor).mpr ⟨other, stored⟩)
  constructor
  · intro other
    rw [entries, descriptors, Finset.mem_insert, conserved.held]
    constructor
    · rintro (rfl | ⟨slot, stored⟩)
      · exact ⟨fd, Function.update_self ..⟩
      · have apart : slot ≠ fd := by
          rintro rfl
          simp [free] at stored
        exact ⟨slot, by rw [Function.update_of_ne apart, stored]⟩
    · rintro ⟨slot, stored⟩
      by_cases same : slot = fd
      · rw [same, Function.update_self, Option.some.injEq] at stored
        exact .inl stored.symm
      · rw [Function.update_of_ne same] at stored
        exact .inr ⟨slot, stored⟩
  · intro first second other here there
    rw [entries] at here there
    by_cases one : first = fd <;> by_cases two : second = fd
    · rw [one, two]
    · -- The new descriptor is not in any other slot.
      rw [one, Function.update_self, Option.some.injEq] at here
      rw [Function.update_of_ne two, ← here] at there
      exact (unused second there).elim
    · rw [two, Function.update_self, Option.some.injEq] at there
      rw [Function.update_of_ne one, ← there] at here
      exact (unused first here).elim
    · rw [Function.update_of_ne one] at here
      rw [Function.update_of_ne two] at there
      exact conserved.once first second other here there

/-- A descriptor that is closed together with its slot conserves. -/
theorem Conserved.erase {fd descriptor : Int} (conserved : Conserved os)
    (used : os.fileTable.entry fd = some descriptor)
    (entries : after.fileTable.entry = Function.update os.fileTable.entry fd none)
    (descriptors : after.descriptors = os.descriptors.erase descriptor) : Conserved after := by
  constructor
  · intro other
    rw [entries, descriptors, Finset.mem_erase, conserved.held]
    constructor
    · rintro ⟨differ, slot, stored⟩
      have apart : slot ≠ fd := by
        rintro rfl
        rw [used, Option.some.injEq] at stored
        exact differ stored.symm
      exact ⟨slot, by rw [Function.update_of_ne apart, stored]⟩
    · rintro ⟨slot, stored⟩
      have apart : slot ≠ fd := by
        rintro rfl
        simp at stored
      rw [Function.update_of_ne apart] at stored
      refine ⟨?_, slot, stored⟩
      rintro rfl
      exact apart (conserved.once slot fd other stored used)
  · intro first second other here there
    rw [entries] at here there
    have one : first ≠ fd := by
      rintro rfl
      simp at here
    have two : second ≠ fd := by
      rintro rfl
      simp at there
    rw [Function.update_of_ne one] at here
    rw [Function.update_of_ne two] at there
    exact conserved.once first second other here there

/-- A slot that is cleared while its descriptor stays open loses it. -/
theorem not_conserved_of_shut {fd : Int} (conserved : Conserved os)
    (used : (os.fileTable.entry fd).isSome)
    (entries : after.fileTable.entry = Function.update os.fileTable.entry fd none)
    (descriptors : after.descriptors = os.descriptors) : ¬ Conserved after := by
  intro kept
  obtain ⟨descriptor, stored⟩ := Option.isSome_iff_exists.mp used
  have opened : descriptor ∈ after.descriptors := by
    rw [descriptors, conserved.held]
    exact ⟨fd, stored⟩
  obtain ⟨slot, found⟩ := (kept.held descriptor).mp opened
  rw [entries] at found
  have apart : slot ≠ fd := by
    rintro rfl
    simp at found
  rw [Function.update_of_ne apart] at found
  exact apart (conserved.once slot fd descriptor found stored)

/-- A system call conserves the descriptors exactly when it does not misplace one. -/
theorem Conserved.handled (conserved : Conserved os)
    (fresh : request.obtains = true → env.answer ≠ -1 → env.answer ∉ os.descriptors)
    (handled : Handled os env thread request after) :
    Conserved after ↔ ¬ os.misplaces env request := by
  cases handled with
  | answered status keeps => exact iff_of_true (conserved.congr rfl rfl) keeps
  | stepped action steps deletes ends keeps =>
    exact iff_of_true (conserved.congr steps.files steps.descriptors) keeps
  | created kind initial steps keeps =>
    exact iff_of_true (conserved.congr (by simp) (by simp)) keeps
  | destroyed kind id object destroys used steps keeps =>
    exact iff_of_true (conserved.congr (by simp) (by simp)) keeps
  | leaked obtains valid leaks =>
    refine iff_of_false ?_ (not_not.mpr leaks)
    exact not_conserved_of_leak conserved (fresh obtains valid) rfl (Finset.mem_insert_self ..)
  | registered obtains valid full =>
    have new := fresh obtains valid
    rw [full]
    by_cases crowded : os.fileTable.Full
    · -- Nothing is stored, but the host has one more descriptor open.
      refine iff_of_false ?_ (not_not.mpr crowded)
      exact not_conserved_of_leak conserved new (ControlTable.open_of_full _ crowded).2
        (Finset.mem_insert_self ..)
    · obtain ⟨-, free, entries⟩ := ControlTable.open_of_not_full env.answer crowded
      exact iff_of_true (conserved.insert new free entries rfl) crowded
  | closed fd descriptor used keeps =>
    refine iff_of_true (conserved.erase used ?_ rfl) keeps
    exact ControlTable.entry_erase (ControlTable.inTable_of_entry used)
  | shut fd descriptor status used other loses =>
    obtain ⟨lost, stored⟩ := Option.isSome_iff_exists.mp other
    refine iff_of_false (not_conserved_of_shut conserved other ?_ rfl) (not_not.mpr loses)
    exact ControlTable.entry_erase (ControlTable.inTable_of_entry stored)

/-- A step conserves the descriptors exactly when it does not lose one. -/
theorem Conserved.moved (conserved : Conserved os) (fresh : os.fresh action)
    (moved : Moved console os action after) : Conserved after ↔ ¬ os.loses action := by
  cases moved with
  | handled caller free plain handled => exact conserved.handled fresh handled
  | @locked request env thread kernel caller free uses stepped =>
    refine iff_of_true (conserved.congr rfl rfl) ?_
    cases request <;> first | exact id | cases uses
  | unlocked status caller stepped => exact iff_of_true (conserved.congr rfl rfl) id
  | scheduled below plain silent stepped =>
    refine iff_of_true (conserved.congr rfl rfl) ?_
    cases action with
    | syscall request env => exact (silent request env rfl).elim
    | go | resume | yield | interrupt | dispatch => exact id

/-- The first three slots hold the standard descriptors. -/
theorem entry_of_init (init : Init console main os) (fd : Int) :
    os.fileTable.entry fd = if 0 ≤ fd ∧ fd ≤ 2 then some fd else none := by
  obtain ⟨garbage, words, covers, made⟩ := init.files
  have empty := ControlTable.entry_new 25 garbage words covers
  generalize ControlTable.new 25 garbage words covers = table at made empty
  -- Each of them takes the first free slot.
  have zero : (table.open_ 0).2.entry = Function.update table.entry 0 (some 0) :=
    ControlTable.entry_open_first 0 rfl (empty 0) (by simp)
  have one : ((table.open_ 0).2.open_ 1).2.entry =
      Function.update (table.open_ 0).2.entry 1 (some 1) := by
    refine @ControlTable.entry_open_first _ _ 1 1 rfl (by simp [zero, empty]) fun earlier before => ?_
    have only : earlier = 0 := by omega
    simp [zero, only]
  have two : (((table.open_ 0).2.open_ 1).2.open_ 2).2.entry =
      Function.update ((table.open_ 0).2.open_ 1).2.entry 2 (some 2) := by
    refine @ControlTable.entry_open_first _ _ 2 2 rfl (by simp [zero, one, empty])
      fun earlier before => ?_
    have both : earlier = 0 ∨ earlier = 1 := by omega
    rcases both with rfl | rfl <;> simp [zero, one]
  rw [made, two, one, zero]
  simp only [Function.update_apply, empty]
  split
  · simp [*]
  · split
    · simp [*]
    · split
      · simp [*]
      · rw [if_neg (by omega)]

/-- The descriptors are conserved at first. -/
theorem conserved_of_init (init : Init console main os) : Conserved os := by
  constructor
  · intro descriptor
    simp only [init.descriptors, Finset.mem_insert, Finset.mem_singleton, entry_of_init init]
    constructor
    · rintro (rfl | rfl | rfl)
      · exact ⟨0, rfl⟩
      · exact ⟨1, rfl⟩
      · exact ⟨2, rfl⟩
    · rintro ⟨fd, stored⟩
      split at stored
      · cases stored
        omega
      · cases stored
  · intro first second descriptor here there
    rw [entry_of_init init] at here there
    split at here
    · split at there
      · cases here
        cases there
        rfl
      · cases there
    · cases here

instance (os : Os) (action : Action) : Decidable (os.fresh action) :=
  match action with
  | .syscall _ _ => inferInstanceAs (Decidable (_ → _ → _))
  | .go _ | .resume | .yield | .interrupt _ | .dispatch => .isTrue trivial

instance (os : Os) (action : Action) : Decidable (os.loses action) :=
  match action with
  | .syscall request env => inferInstanceAs (Decidable (os.misplaces env request))
  | .go _ | .resume | .yield | .interrupt _ | .dispatch => .isFalse id

/--
In every run whose steps lose no descriptor, those that are open on the host are exactly those in
the table, each in one slot; and the next step breaks this exactly when it loses one.
-/
theorem conserved_iff_kept
    (reached : Runs.Reachable (step console) (Init console main)
      (fun os action => os.fresh action ∧ ¬ os.loses action) os) :
    Conserved os ∧ ∀ action after, os.fresh action → step console os action = .ok after →
      (Conserved after ↔ ¬ os.loses action) := by
  have both : os.Waits ∧ Conserved os := by
    refine reached.invariant (fun os => os.Waits ∧ Conserved os) ?_ ?_
    · exact fun os init => ⟨init.waits, conserved_of_init init⟩
    · intro os action after both allowed stepped
      have moved := moved_of_step both.1 stepped
      exact ⟨both.1.moved moved, (both.2.moved allowed.1 moved).mpr allowed.2⟩
  refine ⟨both.2, fun action after fresh stepped => ?_⟩
  exact both.2.moved fresh (moved_of_step both.1 stepped)

/-- A file is opened and a socket created, and the file is closed again. -/
def openAndClose : List Action :=
  [.syscall (.open_ 0) { Env.quiet with answer := 3 },
    .syscall (.socket 0 0) { Env.quiet with answer := 4 }, .syscall (.close 3) Env.quiet]

/-- The socket is left, on the host and in the table. -/
theorem conserved_openAndClose : ∃ os, Runs.run (step 0) firstOs openAndClose = .ok os ∧
    os.descriptors = {0, 1, 2, 4} ∧ Conserved os := by
  obtain ⟨os, ran, checked⟩ := Runs.exists_of_runsTo
    (show Runs.runsTo (step 0) firstOs openAndClose (fun os =>
      os.descriptors = {0, 1, 2, 4}) = true by decide +kernel)
  have reached : Runs.Reachable (step 0) (Init 0 0)
      (fun os action => os.fresh action ∧ ¬ os.loses action) os :=
    Runs.Reachable.extend (.start init_firstOs) (by decide +kernel) ran
  exact ⟨os, ran, by simpa using checked, (conserved_iff_kept reached).1⟩

/-- A file is created. -/
def createOne : List Action := [.syscall (.create 0) { Env.quiet with answer := 3 }]

/-- Its descriptor is open on the host, and in no slot of the table. -/
theorem not_conserved_createOne : Init 0 0 firstOs ∧
    Runs.Guarded (step 0) (fun os action => os.fresh action) firstOs createOne ∧
      ∃ os, Runs.run (step 0) firstOs createOne = .ok os ∧ 3 ∈ os.descriptors ∧
        ¬ Conserved os := by
  refine ⟨init_firstOs, by decide +kernel, ?_⟩
  obtain ⟨os, ran, checked⟩ := Runs.exists_of_runsTo
    (show Runs.runsTo (step 0) firstOs createOne (fun os => 3 ∈ os.descriptors) = true
      by decide +kernel)
  refine ⟨os, ran, by simpa using checked, fun conserved => ?_⟩
  simp only [createOne, Runs.run] at ran
  split at ran
  · rename_i middle stepped
    cases ran
    have moved := moved_of_step init_firstOs.waits stepped
    have kept := ((conserved_of_init init_firstOs).moved (by decide +kernel) moved).mp conserved
    exact kept (by decide +kernel)
  · cases ran

end Nachos.Syscall
