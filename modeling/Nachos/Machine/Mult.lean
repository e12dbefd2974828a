import Nachos.Machine.Translate

/-! `Mult`: multiplication of two words by shifting and adding, into a double word. -/

namespace Nachos

/-- A double word, as the two words that the source keeps it in. -/
structure DoubleWord where
  hi : BitVec 32
  lo : BitVec 32
  deriving DecidableEq, Repr

namespace DoubleWord

/-- The double word as one number. -/
def value (word : DoubleWord) : BitVec 64 := word.hi ++ word.lo

/-- The addition in the loop of `Mult`, with the carry out of the low bits. -/
def add (word other : DoubleWord) : DoubleWord :=
  let lo := word.lo + other.lo
  let hi := if lo < other.lo then word.hi + 1 else word.hi
  ⟨hi + other.hi, lo⟩

/-- The shift in the loop of `Mult`. -/
def double (word : DoubleWord) : DoubleWord :=
  let hi := word.hi <<< 1
  ⟨if word.lo &&& 0x80000000#32 ≠ 0 then hi ||| 1 else hi, word.lo <<< 1⟩

/-- The two's complement at the end of `Mult`. -/
def negate (word : DoubleWord) : DoubleWord :=
  let hi := ~~~word.hi
  let lo := ~~~word.lo + 1
  ⟨if lo = 0 then hi + 1 else hi, lo⟩

end DoubleWord

/-- The loop of `Mult` with so many turns left; `a` is an `int`, which is shifted with its sign. -/
def multLoop : Nat → BitVec 32 → DoubleWord → DoubleWord → DoubleWord
  | 0, _, _, sum => sum
  | turns + 1, a, b, sum =>
    if a &&& 1 ≠ 0 then
      let sum := sum.add b
      if a &&& 0xfffffffe#32 = 0 then sum
      else multLoop turns (a.sshiftRight 1) b.double sum
    else multLoop turns (a.sshiftRight 1) b.double sum

/-- `Mult`. -/
def mult (a b : BitVec 32) (signedArith : Bool) : DoubleWord :=
  if a = 0 ∨ b = 0 then ⟨0#32, 0#32⟩
  else
    -- Each negative operand is made positive, and turns the sign of the result round.
    let negative := (signedArith && a.msb) != (signedArith && b.msb)
    let a := if signedArith && a.msb then -a else a
    let b := if signedArith && b.msb then -b else b
    let product := multLoop 32 a ⟨0#32, b⟩ ⟨0#32, 0#32⟩
    if negative then product.negate else product

section Bits

variable (a : BitVec 32)

theorem lowBit_set : a &&& 1 ≠ 0 ↔ a.toNat % 2 = 1 := by
  -- The bit at the bottom of a number is its remainder.
  rw [Ne, ← BitVec.toNat_inj, BitVec.toNat_and]
  simp [Nat.and_one_is_mod]

theorem topBit_set : a &&& 0x80000000#32 ≠ 0 ↔ 2 ^ 31 ≤ a.toNat := by
  -- The mask is a power of two, so it leaves the sign bit alone.
  rw [show 0x80000000#32 = BitVec.twoPow 32 31 from rfl, BitVec.and_twoPow,
    show a.getLsbD 31 = a.msb from rfl, BitVec.msb_eq_decide]
  by_cases big : 2 ^ 31 ≤ a.toNat <;> simp

theorem highBits_clear : a &&& 0xfffffffe#32 = 0 ↔ a.toNat < 2 := by
  -- The mask clears the lowest bit, which shifting right and left does too.
  have mask : ∀ bit < 32, (0xfffffffe#32).getLsbD bit = decide (0 < bit) := by decide
  have shifted : a &&& 0xfffffffe#32 = (a >>> 1) <<< 1 := by
    refine BitVec.eq_of_getLsbD_eq fun bit small => ?_
    rw [BitVec.getLsbD_and, mask bit small, BitVec.getLsbD_shiftLeft, BitVec.getLsbD_ushiftRight]
    grind
  rw [shifted, ← BitVec.toNat_inj, BitVec.toNat_shiftLeft, BitVec.toNat_ushiftRight,
    Nat.shiftLeft_eq, Nat.shiftRight_eq_div_pow]
  have small := a.isLt
  simp
  omega

theorem toNat_shiftLeft_or_one : (a <<< 1 ||| 1).toNat = 2 * (a.toNat % 2 ^ 31) + 1 := by
  -- The bit that is set was cleared by the shift, so setting it adds one.
  have apart : a <<< 1 &&& 1 = 0 := by
    rw [← BitVec.toNat_inj, BitVec.toNat_and, BitVec.toNat_shiftLeft, Nat.shiftLeft_eq]
    simp [Nat.and_one_is_mod]
  rw [← BitVec.add_eq_or_of_and_eq_zero _ _ apart, BitVec.toNat_add, BitVec.toNat_shiftLeft,
    Nat.shiftLeft_eq]
  simp
  omega

theorem not_add_one : ~~~a + 1 = -a :=
  (BitVec.neg_eq_not_add a).symm

theorem neg_zero_iff : -a = 0 ↔ a.toNat = 0 := by
  rw [← BitVec.toNat_inj, BitVec.toNat_neg, show BitVec.toNat (0 : BitVec 32) = 0 from rfl]
  omega

/-- The sign that an arithmetic shift brings in stays above the bits that the loop still reads. -/
theorem toNat_sshiftRight_one_mod {turns : Nat} (few : turns ≤ 31) :
    (a.sshiftRight 1).toNat % 2 ^ turns = a.toNat / 2 % 2 ^ turns := by
  -- Below the sign, the shift is a division by two.
  have small := a.isLt
  obtain ⟨rest, power⟩ := Nat.pow_dvd_pow 2 few
  rw [BitVec.toNat_sshiftRight]
  split
  · rename_i negative
    rw [BitVec.msb_eq_decide, decide_eq_true_eq] at negative
    rw [show 2 ^ 32 - 1 - (2 ^ 32 - 1 - a.toNat) >>> 1 = a.toNat / 2 + 2 ^ 31 by omega, power,
      Nat.add_mul_mod_self_left]
  · rw [Nat.shiftRight_eq_div_pow, pow_one]

end Bits

namespace DoubleWord

variable (word other : DoubleWord)

theorem value_toNat : word.value.toNat = word.hi.toNat * 2 ^ 32 + word.lo.toNat := by
  -- The words do not overlap, so putting them together adds them up.
  rw [value, BitVec.toNat_append, ← Nat.shiftLeft_add_eq_or_of_lt word.lo.isLt, Nat.shiftLeft_eq]

/-- The carry makes the sum of the words the sum of the numbers. -/
@[simp] theorem value_add : (word.add other).value = word.value + other.value := by
  apply BitVec.eq_of_toNat_eq
  have small := word.lo.isLt
  have small' := other.lo.isLt
  rw [BitVec.toNat_add, value_toNat, value_toNat, value_toNat, add]
  dsimp only
  rw [BitVec.toNat_add, BitVec.toNat_add]
  -- There is a carry exactly if the sum of the low words is smaller than one of them.
  split
  · rename_i carry
    rw [BitVec.lt_def, BitVec.toNat_add] at carry
    rw [BitVec.toNat_add, show BitVec.toNat (1 : BitVec 32) = 1 from rfl]
    omega
  · rename_i carry
    rw [BitVec.lt_def, BitVec.toNat_add] at carry
    omega

/-- The shift, with the bit that it moves from one word to the other, doubles the number. -/
@[simp] theorem value_double : word.double.value = word.value + word.value := by
  apply BitVec.eq_of_toNat_eq
  have small := word.lo.isLt
  rw [BitVec.toNat_add, value_toNat, value_toNat, double]
  dsimp only
  rw [BitVec.toNat_shiftLeft, Nat.shiftLeft_eq]
  split
  · -- The bit that leaves the low word is the one that enters the high word.
    rename_i top
    rw [topBit_set] at top
    rw [toNat_shiftLeft_or_one]
    omega
  · -- The low word has no bit to give away.
    rename_i top
    rw [topBit_set] at top
    rw [BitVec.toNat_shiftLeft, Nat.shiftLeft_eq]
    omega

/-- The complements of the words, with the carry, are the negative of the number. -/
@[simp] theorem value_negate : word.negate.value = -word.value := by
  apply BitVec.eq_of_toNat_eq
  have small := word.lo.isLt
  have small' := word.hi.isLt
  rw [BitVec.toNat_neg, value_toNat, value_toNat, negate]
  dsimp only
  rw [not_add_one, not_add_one]
  split
  · -- The complement of the low word overflows exactly if the low word is zero.
    rename_i carry
    rw [neg_zero_iff] at carry
    rw [BitVec.toNat_neg, BitVec.toNat_neg]
    omega
  · -- Without a carry the high word is only complemented.
    rename_i carry
    rw [neg_zero_iff] at carry
    rw [BitVec.toNat_not, BitVec.toNat_neg]
    omega

end DoubleWord

/-- The turns that are left add `b` as often as the bits of `a` that they read say. -/
theorem value_multLoop {turns : Nat} (few : turns ≤ 32) (a : BitVec 32) (b sum : DoubleWord) :
    (multLoop turns a b sum).value =
      sum.value + b.value * BitVec.ofNat 64 (a.toNat % 2 ^ turns) := by
  induction turns generalizing a b sum with
  | zero => simp [multLoop, Nat.mod_one]
  | succ turns rest =>
    -- The bit that this turn reads, and twice what the other turns read.
    have bits : a.toNat % 2 ^ (turns + 1) = a.toNat % 2 + 2 * (a.toNat / 2 % 2 ^ turns) := by
      rw [pow_succ', Nat.mod_mul]
    have later (sum' : DoubleWord) : (multLoop turns (a.sshiftRight 1) b.double sum').value =
        sum'.value + b.value * BitVec.ofNat 64 (2 * (a.toNat / 2 % 2 ^ turns)) := by
      rw [rest (by omega), toNat_sshiftRight_one_mod a (by omega), DoubleWord.value_double,
        ← BitVec.mul_two, BitVec.mul_assoc, BitVec.ofNat_mul]
    rw [bits, BitVec.ofNat_add, BitVec.mul_add, ← BitVec.add_assoc, multLoop]
    split
    · rename_i odd
      rw [lowBit_set] at odd
      have added : sum.value + b.value * BitVec.ofNat 64 (a.toNat % 2) = (sum.add b).value := by
        rw [odd, DoubleWord.value_add, BitVec.mul_one]
      rw [added]
      dsimp only
      split
      · -- No bit is left, so the turns that are left out would add nothing.
        rename_i last
        rw [highBits_clear] at last
        rw [Nat.div_eq_of_lt last]
        simp
      · exact later _
    · -- An even operand adds nothing in this turn.
      rename_i even
      rw [lowBit_set] at even
      rw [later, show a.toNat % 2 = 0 by omega, BitVec.mul_zero, BitVec.add_zero]

/-- An operand as the loop reads it; `-INT_MIN` is `INT_MIN` again, right as an unsigned number. -/
theorem ofInt_toInt (a : BitVec 32) :
    BitVec.ofInt 64 a.toInt =
      if a.msb then -BitVec.ofNat 64 (-a).toNat else BitVec.ofNat 64 a.toNat := by
  split
  · rename_i negative
    rw [BitVec.msb_eq_decide, decide_eq_true_eq] at negative
    -- The negation is exact as an unsigned number, even for the least word.
    have wrapped : a.toInt = -((-a).toNat : Int) := by
      have small := a.isLt
      rw [BitVec.toInt_eq_toNat_cond, BitVec.toNat_neg]
      split <;> omega
    rw [wrapped, BitVec.ofInt_neg, BitVec.ofInt_natCast]
  · -- A number without a sign is the same in both readings.
    rename_i positive
    rw [BitVec.toInt_eq_toNat_of_msb (by simpa using positive), BitVec.ofInt_natCast]

/-- `Mult` leaves the product of the operands, as the numbers that they are read as, in `hi:lo`. -/
theorem value_mult (a b : BitVec 32) (signedArith : Bool) :
    (mult a b signedArith).value =
      if signedArith then BitVec.ofInt 64 (a.toInt * b.toInt)
      else BitVec.ofNat 64 (a.toNat * b.toNat) := by
  have product (a b : BitVec 32) : (multLoop 32 a ⟨0#32, b⟩ ⟨0#32, 0#32⟩).value =
      BitVec.ofNat 64 a.toNat * BitVec.ofNat 64 b.toNat := by
    have start : DoubleWord.value ⟨0#32, b⟩ = BitVec.ofNat 64 b.toNat :=
      BitVec.eq_of_toNat_eq (by have := b.isLt; simp [DoubleWord.value_toNat]; omega)
    rw [value_multLoop le_rfl, Nat.mod_eq_of_lt a.isLt, start, BitVec.mul_comm]
    exact BitVec.zero_add _
  rw [mult]
  split
  · -- With a factor of zero the loop is not entered.
    rename_i zero
    rcases zero with rfl | rfl <;> simp [DoubleWord.value]
  · dsimp only
    cases signedArith with
    -- Unsigned operands go into the loop as they are.
    | false => simpa [BitVec.ofNat_mul] using product a b
    | true =>
      rw [if_pos rfl, BitVec.ofInt_mul, ofInt_toInt, ofInt_toInt]
      -- One case for each pair of signs; with different signs the result is negated.
      cases a.msb <;> cases b.msb <;> simp [product, -BitVec.toNat_neg, -BitVec.ofNat_toNat]

end Nachos
