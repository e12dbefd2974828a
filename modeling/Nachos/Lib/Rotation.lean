import Mathlib.Data.Int.Order.Basic
import Mathlib.Tactic.Linarith

/-! Places on a wheel, which pass one after the other, each for one period. -/

namespace Rotation

variable {period size place time start : ℤ}

/-- A place begins to pass at a time. -/
def Passes (period size place start : ℤ) : Prop :=
  ∃ turn, start = turn * period ∧ turn % size = place % size

/-- The first turn that begins at a time or later. -/
def turnAt (period time : ℤ) : ℤ := (time + period - 1) / period

/-- The first time from a given one on at which a place begins to pass. -/
def next (period size place time : ℤ) : ℤ :=
  (turnAt period time + (place - turnAt period time) % size) * period

/-- A turn that begins at a time or later is not before the first one. -/
theorem turnAt_le (positive : 0 < period) {turn : ℤ} :
    turnAt period time ≤ turn ↔ time ≤ turn * period := by
  rw [turnAt, ← Int.lt_add_one_iff, Int.ediv_lt_iff_lt_mul positive, Int.add_mul, Int.one_mul]
  omega

/-- The first turn is less than a period away. -/
theorem turnAt_lt (positive : 0 < period) (time : ℤ) :
    turnAt period time * period < time + period := by
  have bound := Int.ediv_mul_le (time + period - 1) (Int.ne_of_gt positive)
  rw [turnAt]
  omega

/-- The place begins to pass then. -/
theorem passes_next (period size place time : ℤ) :
    Passes period size place (next period size place time) := by
  refine ⟨_, rfl, ?_⟩
  rw [Int.add_emod_emod, add_sub_cancel]

/-- It is not before the time. -/
theorem le_next (positive : 0 < period) (places : 0 < size) : time ≤ next period size place time := by
  have later := Int.emod_nonneg (place - turnAt period time) (Int.ne_of_gt places)
  exact (turnAt_le positive).mp (by omega)

/-- The place does not begin to pass before. -/
theorem next_le (positive : 0 < period) (places : 0 < size) (passes : Passes period size place start)
    (late : time ≤ start) : next period size place time ≤ start := by
  obtain ⟨turn, rfl, same⟩ := passes
  have first := (turnAt_le positive).mpr late
  -- From the first turn to this one there are as many as the place is behind, and some rounds.
  have rest : (place - turnAt period time) % size ≤ turn - turnAt period time := by
    have equal : (turn - turnAt period time) % size = (place - turnAt period time) % size := by
      rw [Int.sub_emod, same, ← Int.sub_emod]
    have rounds := Int.mul_nonneg places.le
      (Int.ediv_nonneg (show 0 ≤ turn - turnAt period time by omega) places.le)
    have whole := Int.emod_add_mul_ediv (turn - turnAt period time) size
    omega
  exact Int.mul_le_mul_of_nonneg_right (by omega) positive.le

/-- Every place passes within one round. -/
theorem next_lt (positive : 0 < period) (places : 0 < size) :
    next period size place time < time + size * period := by
  have round := Int.emod_lt_of_pos (place - turnAt period time) places
  have turns : (place - turnAt period time) % size * period ≤ (size - 1) * period :=
    Int.mul_le_mul_of_nonneg_right (by omega) positive.le
  have first := turnAt_lt positive time
  rw [next, Int.add_mul]
  linarith

end Rotation
