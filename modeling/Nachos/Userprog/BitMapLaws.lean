import Nachos.Lib.Pool
import Nachos.Lib.Runs
import Nachos.Userprog.BitMap

/-! A `BitMap` is a set of numbers below its number of bits, after any operations on a new one. -/

namespace Nachos.BitMap

/-- There are words enough for all bits. -/
theorem divRoundUp_covers (nitems : ℕ) :
    nitems ≤ bitsInWord * (divRoundUp nitems bitsInWord).toNat := by
  -- For a number that is not negative, the division rounds up.
  unfold divRoundUp bitsInWord
  rw [Int.tdiv_eq_ediv_of_nonneg (by omega), Int.tmod_eq_emod_of_nonneg (by omega)]
  split <;> omega

/-- `BitMap::BitMap`, where `new unsigned int[numWords]` returns words that hold anything. -/
def ofItems (nitems : ℕ) (memory : ℕ → BitVec 32) : BitMap :=
  let numWords := (divRoundUp nitems bitsInWord).toNat
  new nitems ((List.range numWords).map memory) (by simpa using divRoundUp_covers nitems)

/-- `BitMap::Find` with the `int` it returns. -/
def findInt (bitmap : BitMap) : Int × BitMap :=
  match bitmap.find with
  | none => (-1, bitmap)
  | some (number, after) => (number, after)

/-- The operations that change a map. -/
inductive Operation where
  | mark (which : Int)
  | clear (which : Int)
  | find
  deriving DecidableEq, Repr

/-- One operation; what `Find` returned is kept, oldest first. -/
def perform (state : BitMap × List Int) : Operation → Except Fault (BitMap × List Int)
  | .mark which => do return (← state.1.mark which, state.2)
  | .clear which => do return (← state.1.clear which, state.2)
  | .find => .ok (state.1.findInt.2, state.2 ++ [state.1.findInt.1])

/-- The same operation on a set of numbers. -/
def replay {nitems : ℕ} (state : Pool nitems × List Int) :
    Operation → Except Fault (Pool nitems × List Int)
  | .mark which =>
    if inside : 0 ≤ which ∧ which < nitems then
      .ok (state.1.take which.toNat (by omega), state.2)
    else .error .assertion
  | .clear which =>
    if 0 ≤ which ∧ which < nitems then .ok (state.1.give which.toNat, state.2)
    else .error .assertion
  | .find =>
    match found : state.1.leastFree with
    | none => .ok (state.1, state.2 ++ [-1])
    | some number =>
      .ok (state.1.take number (Pool.leastFree_eq_some.mp found).1.1, state.2 ++ [(number : Int)])

/-- The bits that are set are the numbers of the set. -/
structure Represents {nitems : ℕ} (bitmap : BitMap) (pool : Pool nitems) : Prop where
  numBits : bitmap.numBits = nitems
  marked : ∀ which, which < nitems → bitmap.testBit which = decide (which ∈ pool.taken)

section

variable {nitems : ℕ} {bitmap : BitMap} {pool : Pool nitems}

/-- A new map is the empty set. -/
theorem represents_ofItems (nitems : ℕ) (memory : ℕ → BitVec 32) :
    (ofItems nitems memory).Represents (Pool.empty nitems) := by
  refine ⟨numBits_new _ _ _, fun which inside => ?_⟩
  -- What the memory held is cleared, so no bit of the map depends on it.
  rw [ofItems, testBit_new _ inside]
  simp [Pool.empty]

/-- Setting a bit takes its number. -/
theorem Represents.markBit (represents : bitmap.Represents pool) {which : ℕ}
    (inside : which < nitems) : (bitmap.markBit which).Represents (pool.take which inside) := by
  refine ⟨represents.numBits, fun other small => ?_⟩
  -- Only the bit of this number changes, also among those in the same word.
  rw [testBit_markBit _ _ _ (by rw [represents.numBits]; exact small),
    represents.marked other small]
  simp [Pool.take, Finset.mem_insert, eq_comm]

/-- Resetting a bit gives its number back. -/
theorem Represents.clearBit (represents : bitmap.Represents pool) {which : ℕ} :
    (bitmap.clearBit which).Represents (pool.give which) := by
  refine ⟨represents.numBits, fun other small => ?_⟩
  -- The other bits of the word are kept by the mask.
  rw [testBit_clearBit _ _ _ (by rw [represents.numBits]; exact small),
    represents.marked other small]
  simp [Pool.give, Finset.mem_erase, eq_comm]

/-- The bits that are clear are the numbers that are free. -/
theorem Represents.numClear (represents : bitmap.Represents pool) :
    bitmap.numClear = nitems - pool.taken.card := by
  -- The numbers the loop counts are the free ones.
  have listed : ((List.range bitmap.numBits).filter fun i => !bitmap.testBit i).toFinset =
      pool.free := by
    ext number
    rw [List.mem_toFinset, List.mem_filter, List.mem_range, Pool.mem_free, represents.numBits]
    refine and_congr_right fun inside => ?_
    simp [represents.marked number inside]
  -- The loop counts every number once.
  rw [← Pool.card_free, ← listed, List.toFinset_card_of_nodup (List.nodup_range.filter _),
    BitMap.numClear, List.countP_eq_length_filter]

/-- `Find` returns the least free number, and takes it. -/
theorem Represents.find (represents : bitmap.Represents pool) :
    (bitmap.find = none ∧ pool.leastFree = none) ∨
      ∃ number, bitmap.find = some (number, bitmap.markBit number) ∧
        pool.leastFree = some number := by
  cases found : bitmap.find with
  | none =>
    -- The search went through all numbers and found each of them taken.
    have full := find_eq_none.mp found
    refine .inl ⟨rfl, Pool.leastFree_eq_none.mpr fun number inside => ?_⟩
    have set := full number (by rw [represents.numBits]; exact inside)
    simpa [represents.marked number inside] using set
  | some result =>
    obtain ⟨inside, clear, same, earlier⟩ := find_spec found
    rw [represents.numBits] at inside
    refine .inr ⟨result.1, by rw [← same], Pool.leastFree_eq_some.mpr ⟨⟨inside, ?_⟩, ?_⟩⟩
    · simpa [represents.marked _ inside] using clear
    · -- All numbers in front of the one that was found are taken.
      intro other free
      by_contra before
      have set := earlier other (not_le.mp before)
      rw [represents.marked other free.1] at set
      exact free.2 (of_decide_eq_true set)

/-- `Mark` asks whether the number is below the bound. -/
theorem Represents.mark_eq (represents : bitmap.Represents pool) (which : Int) :
    bitmap.mark which = if 0 ≤ which ∧ which < nitems then .ok (bitmap.markBit which.toNat)
      else .error .assertion := by
  simp [mark, inRange, represents.numBits]

/-- So does `Clear`. -/
theorem Represents.clear_eq (represents : bitmap.Represents pool) (which : Int) :
    bitmap.clear which = if 0 ≤ which ∧ which < nitems then .ok (bitmap.clearBit which.toNat)
      else .error .assertion := by
  simp [clear, inRange, represents.numBits]

/-- `Test` tells whether a number is taken. -/
theorem Represents.test_eq (represents : bitmap.Represents pool) {which : Int} (low : 0 ≤ which)
    (high : which < nitems) : bitmap.test which = .ok (decide (which.toNat ∈ pool.taken)) := by
  rw [test, if_pos (by simp [inRange, represents.numBits, low, high]),
    represents.marked _ (by omega)]

/-- One operation does the same to the map and to the set, or fails on both. -/
theorem Represents.perform (represents : bitmap.Represents pool) (operation : Operation)
    (answers : List Int) :
    (∃ bitmap' pool' answers', BitMap.perform (bitmap, answers) operation = .ok (bitmap', answers') ∧
      replay (pool, answers) operation = .ok (pool', answers') ∧ bitmap'.Represents pool') ∨
    BitMap.perform (bitmap, answers) operation = .error .assertion ∧
      replay (pool, answers) operation = .error .assertion := by
  cases operation with
  | mark which =>
    simp only [BitMap.perform, replay, represents.mark_eq which]
    by_cases inside : 0 ≤ which ∧ which < nitems
    · rw [if_pos inside, dif_pos inside]
      exact .inl ⟨_, _, _, rfl, rfl, represents.markBit (by omega)⟩
    · -- The `ASSERT` fails, and the set has no such number.
      rw [if_neg inside, dif_neg inside]
      exact .inr ⟨rfl, rfl⟩
  | clear which =>
    simp only [BitMap.perform, replay, represents.clear_eq which]
    by_cases inside : 0 ≤ which ∧ which < nitems
    · rw [if_pos inside, if_pos inside]
      exact .inl ⟨_, _, _, rfl, rfl, represents.clearBit⟩
    · rw [if_neg inside, if_neg inside]
      exact .inr ⟨rfl, rfl⟩
  | find =>
    left
    rcases represents.find with ⟨full, none⟩ | ⟨number, found, least⟩
    · -- Nothing is free, so both answer -1 and stay as they are.
      refine ⟨bitmap, pool, answers ++ [-1], ?_, ?_, represents⟩
      · simp [BitMap.perform, findInt, full]
      · simp only [replay]
        split
        · rfl
        · rename_i some
          simp [none] at some
    · -- The first clear bit is the least free number.
      have inside := (Pool.leastFree_eq_some.mp least).1.1
      refine ⟨bitmap.markBit number, pool.take number inside, answers ++ [(number : Int)], ?_, ?_,
        represents.markBit inside⟩
      · simp [BitMap.perform, findInt, found]
      · simp only [replay]
        split
        · rename_i none
          simp [least] at none
        · rename_i other same
          rw [least, Option.some.injEq] at same
          subst same
          rfl

/-- So does any sequence of operations. -/
theorem Represents.run (represents : bitmap.Represents pool) (operations : List Operation)
    (answers : List Int) :
    (∃ bitmap' pool' answers',
      Runs.run BitMap.perform (bitmap, answers) operations = .ok (bitmap', answers') ∧
      Runs.run replay (pool, answers) operations = .ok (pool', answers') ∧
      bitmap'.Represents pool') ∨
    Runs.run BitMap.perform (bitmap, answers) operations = .error .assertion ∧
      Runs.run replay (pool, answers) operations = .error .assertion := by
  -- The map and the set change with every operation, and so do the answers.
  induction operations generalizing bitmap pool answers with
  | nil => exact .inl ⟨_, _, _, rfl, rfl, represents⟩
  | cons operation rest ih =>
    rcases represents.perform operation answers with
      ⟨bitmap', pool', answers', performed, replayed, represents'⟩ | ⟨stopped, stopped'⟩
    · simp only [Runs.run, performed, replayed]
      exact ih represents' answers'
    · -- A failed `ASSERT` ends both runs.
      simp only [Runs.run, stopped, stopped']
      exact .inr ⟨trivial, trivial⟩

end

/-- What the operations of a map show of a set of numbers. -/
structure Shows {nitems : ℕ} (bitmap : BitMap) (pool : Pool nitems) : Prop where
  test : ∀ which : Int, 0 ≤ which → which < nitems →
    bitmap.test which = .ok (decide (which.toNat ∈ pool.taken))
  find : (bitmap.findInt = (-1, bitmap) ∧ ∀ number < nitems, number ∈ pool.taken) ∨
    ∃ number after, IsLeast {other | other < nitems ∧ other ∉ pool.taken} number ∧
      bitmap.findInt = ((number : Int), after) ∧
      ∀ which < nitems, after.testBit which = decide (which ∈ insert number pool.taken)
  numClear : bitmap.numClear = nitems - pool.taken.card

/-- A map that represents a set shows it. -/
theorem Represents.shows {nitems : ℕ} {bitmap : BitMap} {pool : Pool nitems}
    (represents : bitmap.Represents pool) : bitmap.Shows pool := by
  refine ⟨fun which low high => represents.test_eq low high, ?_, represents.numClear⟩
  rcases represents.find with ⟨full, none⟩ | ⟨number, found, least⟩
  · exact .inl ⟨by simp [findInt, full], Pool.leastFree_eq_none.mp none⟩
  · -- The map behind `Find` represents the set with the number added.
    have least := Pool.leastFree_eq_some.mp least
    refine .inr ⟨number, bitmap.markBit number, least, by simp [findInt, found], ?_⟩
    exact (represents.markBit least.1.1).marked

/--
A new map goes through any operations as the set of the numbers that are marked.

Both fail together, when a number is out of range; otherwise `Find` has returned the same numbers,
and the map shows what has become of the set.
-/
theorem refines_set (nitems : ℕ) (memory : ℕ → BitVec 32) (operations : List Operation) :
    (∃ bitmap pool found,
      Runs.run perform (ofItems nitems memory, []) operations = .ok (bitmap, found) ∧
      Runs.run replay (Pool.empty nitems, []) operations = .ok (pool, found) ∧
      bitmap.Shows pool) ∨
    Runs.run perform (ofItems nitems memory, []) operations = .error .assertion ∧
      Runs.run replay (Pool.empty nitems, []) operations = .error .assertion := by
  rcases (represents_ofItems nitems memory).run operations [] with
    ⟨bitmap, pool, found, performed, replayed, represents⟩ | stopped
  · exact .inl ⟨bitmap, pool, found, performed, replayed, represents.shows⟩
  · exact .inr stopped

end Nachos.BitMap
