import Mathlib.Data.Finset.Card
import Nachos.Syscall.HandleMap

/-! The table of threads as a registry: every live thread is in it once, and is found there. -/

namespace Nachos.Syscall

/-- The entries of a table of threads are the live threads, and no slot below one is garbage. -/
structure Registers (table : ControlTable (Option Thread)) (live : Finset Thread) : Prop where
  members : ∀ id object, table.entry id = some object → ∃ thread ∈ live, object = some thread
  listed : ∀ thread ∈ live, ∃ id, table.entry id = some (some thread)
  once : ∀ id other thread, table.entry id = some (some thread) →
    table.entry other = some (some thread) → id = other
  written : ∀ id below, (table.entry id).isSome → 0 ≤ below → below < id →
    table.entry below = none → table.openObjects below = none

namespace ControlTable

variable {α : Type}

/-- `Open` counts no user. -/
theorem usage_open (table : ControlTable α) (object : α) :
    (table.open_ object).2.usage = table.usage := by
  unfold open_
  split <;> rfl

end ControlTable

namespace Registers

open ControlTable

variable {table : ControlTable (Option Thread)} {live : Finset Thread} {thread : Thread} {id : Int}

/-- Counting users does not touch the registry. -/
theorem addThread (registers : Registers table live) : Registers table.addThread live :=
  ⟨registers.members, registers.listed, registers.once, registers.written⟩

theorem delThread (registers : Registers table live) : Registers table.delThread live :=
  ⟨registers.members, registers.listed, registers.once, registers.written⟩

/-- As long as fewer threads are alive than the table has slots, there is room. -/
theorem room (registers : Registers table live) (few : live.card < tableSize) : ¬ table.Full := by
  intro full
  -- In a full table every slot holds a live thread, and no two hold the same one.
  have held : ∀ slot : Nat, slot < tableSize →
      ∃ thread ∈ live, table.entry slot = some (some thread) := by
    intro slot small
    have inside : inTable (slot : Int) = true := by
      rw [tableSize] at small
      exact inTable_iff.mpr (by omega)
    obtain ⟨object, used⟩ := Option.isSome_iff_exists.mp (entry_of_full full inside)
    obtain ⟨thread, alive, rfl⟩ := registers.members slot object used
    exact ⟨thread, alive, used⟩
  choose! holder alive used using held
  have many : tableSize ≤ live.card := by
    rw [← Finset.card_range tableSize]
    refine Finset.card_le_card_of_injOn holder (fun slot small => alive slot ?_) ?_
    · simpa using small
    · intro slot small other small' same
      have first := used slot (by simpa using small)
      have second := used other (by simpa using small')
      rw [← same] at second
      have equal := registers.once slot other (holder slot) first second
      omega
  omega

/-- A new thread is entered once, and the others stay where they are. -/
theorem open_ (registers : Registers table live) (fresh : thread ∉ live) (room : ¬ table.Full) :
    Registers (table.open_ (some thread)).2 (insert thread live) := by
  obtain ⟨slot, inside, free, opened, before⟩ := open_eq_store (some thread) room
  have entries : (table.store slot (some thread)).entry =
      Function.update table.entry slot (some (some thread)) := entry_store inside
  -- The thread is in no other slot, because it was not alive.
  have absent : ∀ id, table.entry id ≠ some (some thread) := by
    intro id used
    obtain ⟨other, alive, same⟩ := registers.members id _ used
    rw [Option.some.injEq] at same
    exact fresh (same ▸ alive)
  rw [opened]
  refine ⟨?_, ?_, ?_, ?_⟩
  · intro id object used
    rw [entries, Function.update_apply] at used
    split at used
    · exact ⟨thread, Finset.mem_insert_self _ _, (Option.some.inj used).symm⟩
    · obtain ⟨other, alive, same⟩ := registers.members id object used
      exact ⟨other, Finset.mem_insert_of_mem alive, same⟩
  · intro other member
    rcases Finset.mem_insert.mp member with rfl | alive
    · exact ⟨slot, by rw [entries, Function.update_self]⟩
    · obtain ⟨id, used⟩ := registers.listed other alive
      have differ : id ≠ slot := by
        rintro rfl
        simp [free] at used
      exact ⟨id, by rw [entries, Function.update_of_ne differ, used]⟩
  · intro id other holder used used'
    rw [entries, Function.update_apply] at used used'
    split at used <;> split at used'
    · rename_i here there
      exact here.trans there.symm
    · simp only [Option.some.injEq] at used
      exact absurd (used ▸ used') (absent other)
    · simp only [Option.some.injEq] at used'
      exact absurd (used' ▸ used) (absent id)
    · exact registers.once id other holder used used'
  · exact Written.store registers.written inside before

/-- A live thread is found at its identifier, although free slots are looked at as well. -/
theorem getID_eq (registers : Registers table live) (used : table.entry id = some (some thread)) :
    table.getID (some thread) = id := by
  have found := Written.entry_getID registers.written used (by simp)
  exact registers.once _ id thread found used

/-- A thread that ends is taken out, and only that one. -/
theorem close (registers : Registers table live) (alive : thread ∈ live) :
    ∃ object after, table.close (table.getID (some thread)) = .ok (object, after) ∧
      Registers after (live.erase thread) ∧ after.usage = table.usage := by
  obtain ⟨id, used⟩ := registers.listed thread alive
  have inside := inTable_of_entry used
  have entries := @entry_erase (Option Thread) table id _ inside
  refine ⟨some (some thread), table.erase id, ?_, ⟨?_, ?_, ?_, ?_⟩, rfl⟩
  · rw [registers.getID_eq used, close_eq, if_pos inside, used]
    rfl
  · intro other object used'
    rw [entries, Function.update_apply] at used'
    split at used'
    · simp at used'
    · rename_i differ
      obtain ⟨holder, alive', rfl⟩ := registers.members other object used'
      refine ⟨holder, Finset.mem_erase.mpr ⟨?_, alive'⟩, rfl⟩
      rintro rfl
      exact differ (registers.once other id holder used' used)
  · intro other member
    obtain ⟨differ, alive'⟩ := Finset.mem_erase.mp member
    obtain ⟨place, used'⟩ := registers.listed other alive'
    have elsewhere : place ≠ id := by
      rintro rfl
      rw [used, Option.some.injEq, Option.some.injEq] at used'
      exact differ used'.symm
    exact ⟨place, by rw [entries, Function.update_of_ne elsewhere, used']⟩
  · intro place other holder used' used''
    rw [entries, Function.update_apply] at used' used''
    split at used'
    · simp at used'
    · split at used''
      · simp at used''
      · exact registers.once place other holder used' used''
  · exact Written.erase registers.written inside

/-- The first thread is entered into an empty table, whatever the allocator left in it. -/
theorem started (empty : ∀ id, table.entry id = none) (thread : Thread) :
    Registers (table.open_ (some thread)).2 {thread} := by
  have none : Registers table ∅ := by
    refine ⟨?_, by simp, ?_, ?_⟩
    · simp [empty]
    · simp [empty]
    · simp [empty]
  exact none.open_ (Finset.notMem_empty _) (none.room (by simp [tableSize]))

end Registers

end Nachos.Syscall
