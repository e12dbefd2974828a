import Mathlib.Logic.Function.Iterate
import Nachos.PapaCaliente.Collatz

/-! A potato that starts below ten thousand never becomes negative. -/

namespace PapaCaliente

/-- The rule on numbers without a bound. -/
def collatzNat (value : Nat) : Nat := if value % 2 = 1 then 3 * value + 1 else value / 2

/-- Numbers that are far from wrapping around. -/
def far : Nat := 2 ^ 60

/-- Below the bound the rule is the one on numbers. -/
theorem collatz_toNat {value : SSize} (small : value.toNat < far) :
    (collatz value).toNat = collatzNat value.toNat := by
  have parity : (value &&& 1 = 1) ↔ value.toNat % 2 = 1 := by
    rw [← BitVec.toNat_inj]
    simp
  unfold collatz collatzNat
  by_cases odd : value.toNat % 2 = 1
  · rw [if_pos (parity.mpr odd), if_pos odd]
    simp only [BitVec.toNat_add, BitVec.toNat_shiftLeft, BitVec.ofNat_eq_ofNat, BitVec.toNat_ofNat,
      Nat.shiftLeft_eq]
    simp only [far] at small
    omega
  · rw [if_neg fun yes => odd (parity.mp yes), if_neg odd]
    have positive : value.msb = false := by
      rw [BitVec.msb_eq_false_iff_two_mul_lt]
      simp only [far] at small
      omega
    rw [BitVec.sshiftRight_eq_of_msb_false positive]
    simp [Nat.shiftRight_eq_div_pow]

/-- The potato is negative now. -/
def Negative (value : SSize) : Prop := value.slt 0 = true

/-- Small numbers are not negative. -/
theorem not_negative {value : SSize} (small : value.toNat < far) : ¬ Negative value := by
  have positive : value.msb = false := by
    rw [BitVec.msb_eq_false_iff_two_mul_lt]
    simp only [far] at small
    omega
  simp [Negative, BitVec.slt, BitVec.toInt_eq_msb_cond, positive]

/-- However often the rule is applied, the potato is not negative. -/
def Tame (value : SSize) : Prop := ∀ times, ¬ Negative (collatz^[times] value)

/-- A potato that is tame stays so. -/
theorem Tame.collatz {value : SSize} (tame : Tame value) : Tame (collatz value) :=
  fun times => tame (times + 1)

/-- A potato whose successor is tame is tame when it is not negative itself. -/
theorem Tame.of_collatz {value : SSize} (now : ¬ Negative value)
    (later : Tame (PapaCaliente.collatz value)) : Tame value := by
  intro times
  cases times with
  | zero => exact now
  | succ times => exact later times

/-- The numbers go below the first one before any of them is large. -/
def drops (first : Nat) : Nat → Nat → Bool
  | 0, _ => false
  | fuel + 1, value =>
    decide (value < first) || (decide (value < far) && drops first fuel (collatzNat value))

/-- All numbers below a bound get smaller, apart from the fixed point and the cycle. -/
def allDrop : Nat → Bool
  | 0 => true
  | bound + 1 => (decide (bound ≤ 1) || drops bound 200 (collatzNat bound)) && allDrop bound

/-- A potato is tame when its numbers go below a first one, below which all are. -/
theorem tame_of_drops {first fuel : Nat} (below : ∀ value : SSize, value.toNat < first → Tame value)
    {value : SSize} (dropped : drops first fuel value.toNat = true) : Tame value := by
  induction fuel generalizing value with
  | zero => cases dropped
  | succ fuel ih =>
    simp only [drops, Bool.or_eq_true, Bool.and_eq_true, decide_eq_true_eq] at dropped
    rcases dropped with less | ⟨small, later⟩
    · exact below value less
    · rw [← collatz_toNat small] at later
      exact .of_collatz (not_negative small) (ih later)

/-- The fixed point, and the cycle that ends with an explosion. -/
theorem tame_cycle {value : SSize} (member : value.toNat ∈ [0, 1, 2, 4]) : Tame value := by
  have closed : ∀ number ∈ [0, 1, 2, 4], number < far ∧ collatzNat number ∈ [0, 1, 2, 4] := by
    decide
  intro times
  induction times generalizing value with
  | zero => exact not_negative (closed _ member).1
  | succ times ih =>
    refine ih ?_
    rw [collatz_toNat (closed _ member).1]
    exact (closed _ member).2

/-- Every potato below a checked bound is tame. -/
theorem tame_of_allDrop {bound : Nat} (within : bound < far) (checked : allDrop bound = true)
    {value : SSize} (less : value.toNat < bound) : Tame value := by
  induction bound generalizing value with
  | zero => cases less
  | succ bound ih =>
    simp only [allDrop, Bool.and_eq_true, Bool.or_eq_true, decide_eq_true_eq] at checked
    obtain ⟨here, earlier⟩ := checked
    have below : ∀ value : SSize, value.toNat < bound → Tame value :=
      fun value less => ih (Nat.lt_of_succ_lt within) earlier less
    rcases Nat.lt_succ_iff_lt_or_eq.mp less with less | same
    · exact below value less
    · rcases here with tiny | dropped
      · -- Nothing goes below zero or one, but their numbers come back.
        have number : value.toNat = 0 ∨ value.toNat = 1 := by omega
        refine tame_cycle ?_
        rcases number with zero | one
        · simp [zero]
        · simp [one]
      · have small : value.toNat < far := by omega
        rw [← same, ← collatz_toNat small] at dropped
        exact .of_collatz (not_negative small) (tame_of_drops (same ▸ below) dropped)

/-- The numbers that a new potato can have were all checked. -/
theorem allDrop_MAXRANDOM : allDrop MAXRANDOM = true := by decide +kernel

/-- A potato that replaces one which exploded is never negative. -/
theorem tame_reseed (random : Nat) : Tame (BitVec.ofNat 64 (random % MAXRANDOM)) := by
  have less : random % MAXRANDOM < MAXRANDOM := Nat.mod_lt _ (by decide)
  have bound : MAXRANDOM < far := by decide
  refine tame_of_allDrop bound allDrop_MAXRANDOM ?_
  rw [BitVec.toNat_ofNat]
  exact Nat.lt_of_le_of_lt (Nat.mod_le _ _) less

end PapaCaliente
