import Mathlib.Data.Finset.Max
import Mathlib.Order.Bounds.Basic

/-! The numbers below a bound, some of which are taken. -/

/-- No number from the bound on can be taken. -/
structure Pool (bound : ℕ) where
  taken : Finset ℕ
  below : ∀ number ∈ taken, number < bound

namespace Pool

variable {bound : ℕ}

/-- Nothing is taken. -/
def empty (bound : ℕ) : Pool bound := ⟨∅, by simp⟩

/-- Take a number. -/
def take (pool : Pool bound) (number : ℕ) (inside : number < bound) : Pool bound where
  taken := insert number pool.taken
  below := by
    intro other member
    rcases Finset.mem_insert.mp member with rfl | member
    · exact inside
    · exact pool.below other member

/-- Give a number back. -/
def give (pool : Pool bound) (number : ℕ) : Pool bound where
  taken := pool.taken.erase number
  below := fun other member => pool.below other (Finset.mem_of_mem_erase member)

/-- The numbers that can be taken. -/
def free (pool : Pool bound) : Finset ℕ := Finset.range bound \ pool.taken

/-- A number is free when it is below the bound and not taken. -/
@[simp] theorem mem_free {pool : Pool bound} {number : ℕ} :
    number ∈ pool.free ↔ number < bound ∧ number ∉ pool.taken := by
  simp [free]

/-- Every number below the bound is either taken or free. -/
theorem card_free (pool : Pool bound) : pool.free.card = bound - pool.taken.card := by
  -- What is taken lies below the bound, so it can be subtracted.
  have inside : pool.taken ⊆ Finset.range bound := by
    intro number member
    exact Finset.mem_range.mpr (pool.below number member)
  rw [free, Finset.card_sdiff_of_subset inside, Finset.card_range]

/-- The least number that is free. -/
def leastFree (pool : Pool bound) : Option ℕ :=
  if some : pool.free.Nonempty then .some (pool.free.min' some) else none

/-- The free numbers, as a condition. -/
theorem coe_free (pool : Pool bound) :
    (pool.free : Set ℕ) = {number | number < bound ∧ number ∉ pool.taken} := by
  ext number
  simp

/-- It is the least of all numbers below the bound that are not taken. -/
theorem leastFree_eq_some {pool : Pool bound} {number : ℕ} :
    pool.leastFree = some number ↔
      IsLeast {other | other < bound ∧ other ∉ pool.taken} number := by
  rw [← coe_free, leastFree]
  split
  · rename_i free
    -- A set has only one least element.
    have least := pool.free.isLeast_min' free
    rw [Option.some.injEq]
    constructor
    · intro same
      exact same ▸ least
    · intro other
      exact least.unique other
  · -- Where nothing is free, nothing is least.
    rename_i full
    exact iff_of_false (by simp) fun least => full ⟨number, least.1⟩

/-- There is none exactly when every number below the bound is taken. -/
theorem leastFree_eq_none {pool : Pool bound} :
    pool.leastFree = none ↔ ∀ number < bound, number ∈ pool.taken := by
  have full : pool.free = ∅ ↔ ∀ number < bound, number ∈ pool.taken := by
    simp [Finset.eq_empty_iff_forall_notMem]
  rw [← full, leastFree]
  split
  · rename_i free
    exact iff_of_false (by simp) free.ne_empty
  · rename_i none
    exact iff_of_true rfl (Finset.not_nonempty_iff_eq_empty.mp none)

end Pool
