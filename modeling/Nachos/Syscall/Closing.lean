import Nachos.Syscall.Effects

/-! Which entries of the file table `Close` and `Shutdown` take away. -/

namespace Nachos.Syscall

/-- A handler ends, and its file table has lost the entry of one identifier and no other. -/
def FreesOnly (os : Os) (id : Int) (handled : Except Fault Os) : Prop :=
  ∃ after, handled = .ok after ∧
    after.fileTable.entry = Function.update os.fileTable.entry id none

section

variable {os : Os} {thread : Thread} {env : Env} {id descriptor : Int}

/-- The handler of an identifier that is in use goes on with its descriptor. -/
theorem useDescriptor_of_entry {proceed : Int → Except Fault Os}
    (used : os.fileTable.entry id = some descriptor) :
    os.useDescriptor thread id proceed = proceed descriptor := by
  -- The identifier is in the table and open, so the `ASSERT` and the test both pass.
  have inside := ControlTable.inTable_of_entry used
  simp only [Os.useDescriptor, ControlTable.isOpened_eq, ControlTable.getObject_eq, inside, used,
    if_true, Option.isSome_some, Runs.ok_bind]

/-- `Close` takes away the entry it is asked for. -/
theorem close_freesOnly (used : os.fileTable.entry id = some descriptor) :
    FreesOnly os id (os.handle env thread (.close id)) := by
  have inside := ControlTable.inTable_of_entry used
  refine ⟨{ os with
    fileTable := os.fileTable.erase id
    descriptors := os.descriptors.erase descriptor }.ret thread descriptor, ?_, ?_⟩
  · -- The handler goes on to `Close` of the table, with the host's descriptor as its answer.
    simp only [Os.handle, Os.nachOSClose, useDescriptor_of_entry used, ControlTable.close_eq, inside,
      used, if_true, Option.isSome_some, Runs.ok_bind]
    rfl
  · exact ControlTable.entry_erase inside

/-- `Shutdown` closes the slot whose number is the host's descriptor. -/
theorem handle_shutdown (used : os.fileTable.entry id = some descriptor) :
    os.handle env thread (.shutdown id) =
      if ControlTable.inTable descriptor then
        .ok ({ os with fileTable := if (os.fileTable.entry descriptor).isSome then
            os.fileTable.erase descriptor else os.fileTable }.ret thread
          (if descriptor = -1 then -1 else env.answer))
      else .error .assertion := by
  -- The host's descriptor is taken for an identifier of the table.
  simp only [Os.handle, Os.nachOSShutdown, useDescriptor_of_entry used, ControlTable.close_eq]
  split
  · rfl
  · rfl

/-- `Shutdown` takes away the entry it is asked for exactly when the two numbers are one. -/
theorem shutdown_freesOnly_iff (used : os.fileTable.entry id = some descriptor) :
    FreesOnly os id (os.handle env thread (.shutdown id)) ↔ descriptor = id := by
  rw [handle_shutdown used]
  constructor
  · rintro ⟨after, done, freed⟩
    -- The entry of the identifier has gone, so the slot that was closed is its own.
    by_contra differ
    have gone : after.fileTable.entry id = none := by rw [freed, Function.update_self]
    split at done
    · rename_i inside
      rw [← Except.ok.inj done, Os.ret_fileTable] at gone
      -- Whether another slot or none is freed, the entry of the identifier stays.
      split at gone
      · rw [ControlTable.entry_erase inside, Function.update_of_ne (Ne.symm differ), used] at gone
        cases gone
      · rw [used] at gone
        cases gone
    · -- A descriptor outside of the table ends in an `ASSERT`.
      cases done
  · -- The two numbers are one, so the slot that is closed is the right one.
    rintro rfl
    have inside := ControlTable.inTable_of_entry used
    rw [if_pos inside, if_pos (by rw [used]; rfl)]
    exact ⟨_, rfl, ControlTable.entry_erase inside⟩

/--
`Close` frees the slot it is asked for and no other one, and `Shutdown` does so only by chance.

The chance is that the host's descriptor has the number of the slot.
-/
theorem freesOnly_iff (env : Env) (thread : Thread)
    (used : os.fileTable.entry id = some descriptor) :
    FreesOnly os id (os.handle env thread (.close id)) ∧
      (FreesOnly os id (os.handle env thread (.shutdown id)) ↔ descriptor = id) :=
  ⟨close_freesOnly used, shutdown_freesOnly_iff used⟩

end

/-- A process shuts its standard output down. -/
theorem freesOnly_output : FreesOnly firstOs 1 (firstOs.handle Env.quiet 0 (.shutdown 1)) :=
  (freesOnly_iff Env.quiet 0 (show firstOs.fileTable.entry 1 = some 1 by decide +kernel)).2.mpr rfl

/-- The host gives out descriptor 5 for the socket that gets number 3. -/
theorem not_freesOnly_socket : ∃ os, Runs.run (step 0) firstOs
      [.syscall (.socket 0 0) { Env.quiet with answer := 5 }] = .ok os ∧
    os.fileTable.entry 3 = some 5 ∧
      ¬ (FreesOnly os 3 (os.handle Env.quiet 0 (.close 3)) ∧
        FreesOnly os 3 (os.handle Env.quiet 0 (.shutdown 3))) := by
  -- `socket` gives the descriptor 5 the first identifier that is free, which is 3.
  obtain ⟨os, ran, used⟩ := Runs.exists_of_runsTo
    (show Runs.runsTo (step 0) firstOs
      [.syscall (.socket 0 0) { Env.quiet with answer := 5 }]
        (fun os => os.fileTable.entry 3 = some 5) = true by decide +kernel)
  have used : os.fileTable.entry 3 = some 5 := by simpa using used
  -- `Shutdown` closes slot 5, and the socket stays in slot 3.
  refine ⟨os, ran, used, fun both => ?_⟩
  exact absurd ((shutdown_freesOnly_iff used).mp both.2) (by decide)

end Nachos.Syscall
