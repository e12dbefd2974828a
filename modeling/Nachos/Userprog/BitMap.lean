import Nachos.Machine.Translate
import Mathlib.Data.List.Basic

/-! `BitMap`: an array of 32-bit words read as one bit per resource. -/

namespace Nachos

/-- `BitsInWord`. -/
def bitsInWord : Nat := 32

/-- The words always cover every bit of the map, so no access leaves the array. -/
structure BitMap where
  numBits : Nat
  map : List (BitVec 32)
  covers : numBits ≤ bitsInWord * map.length

namespace BitMap

/-- `1 << (which % BitsInWord)`. -/
def mask (which : Nat) : BitVec 32 := 1#32 <<< (which % bitsInWord)

/-- The word update shared by `Mark` and `Clear`. -/
def modifyWord (bitmap : BitMap) (which : Nat) (change : BitVec 32 → BitVec 32) : BitMap where
  numBits := bitmap.numBits
  map := bitmap.map.modify (which / bitsInWord) change
  covers := by rw [List.length_modify]; exact bitmap.covers

/-- `BitMap::Mark` after its `ASSERT`. -/
def markBit (bitmap : BitMap) (which : Nat) : BitMap :=
  bitmap.modifyWord which (· ||| mask which)

/-- `BitMap::Clear` after its `ASSERT`. -/
def clearBit (bitmap : BitMap) (which : Nat) : BitMap :=
  bitmap.modifyWord which (· &&& ~~~ mask which)

/-- `BitMap::Test` after its `ASSERT`. -/
def testBit (bitmap : BitMap) (which : Nat) : Bool :=
  (bitmap.map[which / bitsInWord]?.getD 0#32) &&& mask which != 0#32

/-- The `ASSERT` at the head of `Mark`, `Clear` and `Test`. -/
def inRange (bitmap : BitMap) (which : Int) : Bool := 0 ≤ which && which < bitmap.numBits

/-- `BitMap::Mark`. -/
def mark (bitmap : BitMap) (which : Int) : Except Fault BitMap :=
  if bitmap.inRange which then .ok (bitmap.markBit which.toNat) else .error .assertion

/-- `BitMap::Clear`. -/
def clear (bitmap : BitMap) (which : Int) : Except Fault BitMap :=
  if bitmap.inRange which then .ok (bitmap.clearBit which.toNat) else .error .assertion

/-- `BitMap::Test`. -/
def test (bitmap : BitMap) (which : Int) : Except Fault Bool :=
  if bitmap.inRange which then .ok (bitmap.testBit which.toNat) else .error .assertion

/-- `BitMap::Find`: the first clear bit, now marked. Where the source answers -1, so does `none`. -/
def find (bitmap : BitMap) : Option (Nat × BitMap) :=
  match (List.range bitmap.numBits).find? fun i => !bitmap.testBit i with
  | none => none
  | some i => some (i, bitmap.markBit i)

/-- `BitMap::NumClear`. -/
def numClear (bitmap : BitMap) : Nat :=
  (List.range bitmap.numBits).countP fun i => !bitmap.testBit i

/-- `BitMap::BitMap`: the words come uninitialised from the allocator and are cleared bit by bit. -/
def new (nitems : Nat) (garbage : List (BitVec 32))
    (covers : nitems ≤ bitsInWord * garbage.length) : BitMap :=
  (List.range nitems).foldl clearBit ⟨nitems, garbage, covers⟩

/-- One word has a bit for every frame. -/
theorem fits_oneWord : numPhysPages ≤ bitsInWord * [0#32].length := by decide

/-- Both updates keep the number of bits. -/
@[simp] theorem numBits_modifyWord (bitmap : BitMap) (which : Nat)
    (change : BitVec 32 → BitVec 32) : (bitmap.modifyWord which change).numBits = bitmap.numBits :=
  rfl

/-- Marking a bit keeps the number of bits. -/
@[simp] theorem numBits_markBit (bitmap : BitMap) (which : Nat) :
    (bitmap.markBit which).numBits = bitmap.numBits := rfl

/-- Clearing a bit keeps the number of bits. -/
@[simp] theorem numBits_clearBit (bitmap : BitMap) (which : Nat) :
    (bitmap.clearBit which).numBits = bitmap.numBits := rfl

/-- The mask of a bit has exactly that bit of the word set. -/
theorem getLsbD_mask (which bit : Nat) :
    (mask which).getLsbD bit = decide (bit = which % bitsInWord) := by
  -- Shifting one leaves a single bit, and the shift is always inside the word.
  have inside : which % bitsInWord < 32 := Nat.mod_lt _ (by decide)
  by_cases same : bit = which % bitsInWord
  · subst same
    simp [mask, inside]
  · simp only [mask, BitVec.getLsbD_shiftLeft, same, decide_false]
    by_cases below : bit < which % bitsInWord
    · simp [below]
    · have later : bit - which % bitsInWord ≠ 0 := by omega
      simp [below, BitVec.getLsbD_one, later]

/-- Masking a word leaves something exactly when the masked bit is set. -/
theorem and_mask_ne_zero (word : BitVec 32) (which : Nat) :
    (word &&& mask which != 0#32) = word.getLsbD (which % bitsInWord) := by
  -- The only bit the mask can leave is its own.
  have alone : ∀ bit, (word &&& mask which).getLsbD bit =
      (word.getLsbD bit && decide (bit = which % bitsInWord)) := by
    intro bit
    rw [BitVec.getLsbD_and, getLsbD_mask]
  cases set : word.getLsbD (which % bitsInWord) with
  | true =>
    rw [bne_iff_ne]
    intro zero
    have bit := alone (which % bitsInWord)
    simp [zero, set] at bit
  | false =>
    have zero : word &&& mask which = 0#32 := by
      apply BitVec.eq_of_getLsbD_eq
      intro bit _
      rw [alone]
      by_cases same : bit = which % bitsInWord
      · subst same; simp [set]
      · simp [same]
    simp [zero]

/-- `Test` reads the addressed bit of the addressed word. -/
theorem testBit_eq (bitmap : BitMap) (which : Nat) :
    bitmap.testBit which =
      (bitmap.map[which / bitsInWord]?.getD 0#32).getLsbD (which % bitsInWord) :=
  and_mask_ne_zero _ _

/-- What a word update does to every bit of the map. -/
theorem testBit_modifyWord (bitmap : BitMap) (which other : Nat) (inside : other < bitmap.numBits)
    (change : BitVec 32 → BitVec 32) :
    (bitmap.modifyWord which change).testBit other =
      if which / bitsInWord = other / bitsInWord then
        (change (bitmap.map[other / bitsInWord]?.getD 0#32)).getLsbD (other % bitsInWord)
      else bitmap.testBit other := by
  -- The word holding an in-range bit exists, so the update reaches it or leaves it alone.
  have held : other / bitsInWord < bitmap.map.length := by
    have covers := bitmap.covers
    exact Nat.div_lt_of_lt_mul (by omega)
  rw [testBit_eq, testBit_eq]
  simp only [modifyWord, List.getElem?_modify, List.getElem?_eq_getElem held, Option.map_eq_map,
    Option.map_some, Option.getD_some]
  split <;> rfl

/-- Two bits with the same word and the same place in it are one bit. -/
theorem same_bit_iff (which other : Nat) :
    which = other ↔ which / bitsInWord = other / bitsInWord ∧
      other % bitsInWord = which % bitsInWord := by
  constructor
  · intro same
    simp [same]
  · rintro ⟨quotients, remainders⟩
    rw [← Nat.div_add_mod which bitsInWord, ← Nat.div_add_mod other bitsInWord, quotients,
      remainders]

/-- Marking sets the named bit and no other. -/
theorem testBit_markBit (bitmap : BitMap) (which other : Nat) (inside : other < bitmap.numBits) :
    (bitmap.markBit which).testBit other = (decide (which = other) || bitmap.testBit other) := by
  -- The bit changes only in its own word, at its own place.
  rw [markBit, testBit_modifyWord bitmap which other inside]
  simp only [BitVec.getLsbD_or, getLsbD_mask, testBit_eq, same_bit_iff which other]
  by_cases word : which / bitsInWord = other / bitsInWord
  · simp [word, Bool.or_comm]
  · simp [word]

/-- Clearing resets the named bit and no other. -/
theorem testBit_clearBit (bitmap : BitMap) (which other : Nat) (inside : other < bitmap.numBits) :
    (bitmap.clearBit which).testBit other = (!decide (which = other) && bitmap.testBit other) := by
  -- The bit changes only in its own word, at its own place.
  rw [clearBit, testBit_modifyWord bitmap which other inside]
  have place : other % bitsInWord < 32 := Nat.mod_lt _ (by decide)
  simp only [BitVec.getLsbD_and, BitVec.getLsbD_not, getLsbD_mask, testBit_eq,
    same_bit_iff which other, place, decide_true, Bool.true_and]
  by_cases word : which / bitsInWord = other / bitsInWord
  · simp [word, Bool.and_comm]
  · simp [word]

/-- Clearing succeeds only inside the map. -/
theorem clear_ok {map after : BitMap} {number : Nat} (cleared : map.clear number = .ok after) :
    after = map.clearBit number := by
  unfold clear at cleared
  split at cleared
  · simpa using cleared.symm
  · simp at cleared

/-- A successful `Find` marks a bit that was clear, and it is the first such bit. -/
theorem find_spec {bitmap after : BitMap} {which : Nat} (found : bitmap.find = some (which, after)) :
    which < bitmap.numBits ∧ bitmap.testBit which = false ∧ after = bitmap.markBit which ∧
      ∀ earlier, earlier < which → bitmap.testBit earlier = true := by
  unfold find at found
  cases located : (List.range bitmap.numBits).find? fun i => !bitmap.testBit i with
  | none => simp [located] at found
  | some i =>
    simp only [located, Option.some.injEq, Prod.mk.injEq] at found
    obtain ⟨rfl, rfl⟩ := found
    have member := List.mem_range.mp (List.mem_of_find?_eq_some located)
    have clear := List.find?_some located
    refine ⟨member, by simpa using clear, rfl, ?_⟩
    intro earlier before
    have skipped := List.find?_range_eq_some.mp located
    simpa using skipped.2.2 earlier before

/-- `Find` fails exactly when every bit is set. -/
theorem find_eq_none {bitmap : BitMap} :
    bitmap.find = none ↔ ∀ which, which < bitmap.numBits → bitmap.testBit which = true := by
  unfold find
  cases located : (List.range bitmap.numBits).find? fun i => !bitmap.testBit i with
  | none =>
    have full := List.find?_eq_none.mp located
    simp only [true_iff]
    intro which inside
    simpa using full which (List.mem_range.mpr inside)
  | some i =>
    have member := List.mem_range.mp (List.mem_of_find?_eq_some located)
    have clear := List.find?_some located
    simp only [reduceCtorEq, false_iff]
    intro full
    simp [full i member] at clear

/-- Marking a clear bit leaves one clear bit less. -/
theorem numClear_markBit {bitmap : BitMap} {number : Nat} (inside : number < bitmap.numBits)
    (free : bitmap.testBit number = false) :
    bitmap.numClear = (bitmap.markBit number).numClear + 1 := by
  have member : number ∈ List.range bitmap.numBits := List.mem_range.mpr inside
  -- The other bits count as before.
  have others : ((List.range bitmap.numBits).erase number).countP (fun i => !bitmap.testBit i) =
      ((List.range bitmap.numBits).erase number).countP
        (fun i => !(bitmap.markBit number).testBit i) := by
    apply List.countP_congr
    intro other remaining
    obtain ⟨differ, listed⟩ := (List.nodup_range.mem_erase_iff).mp remaining
    rw [testBit_markBit _ _ _ (List.mem_range.mp listed)]
    simp [Ne.symm differ]
  -- The bit itself counts before, and no longer counts afterwards.
  have own : (bitmap.markBit number).testBit number = true := by
    rw [testBit_markBit _ _ _ inside]
    simp
  rw [numClear, numClear, numBits_markBit, (List.perm_cons_erase member).countP_eq,
    (List.perm_cons_erase member).countP_eq, List.countP_cons_of_pos (by simp [free]),
    List.countP_cons_of_neg (by simp [own]), others]

/-- `Find` succeeds while there are clear bits. -/
theorem exists_find {bitmap : BitMap} (some : 0 < bitmap.numClear) : ∃ number after,
    bitmap.find = .some (number, after) ∧ bitmap.numClear = after.numClear + 1 := by
  cases found : bitmap.find with
  | none =>
    -- If every bit were marked, none would count as clear.
    have full := find_eq_none.mp found
    obtain ⟨number, member, clear⟩ := List.countP_pos_iff.mp some
    rw [full number (List.mem_range.mp member)] at clear
    simp at clear
  | some result =>
    obtain ⟨inside, free, same, -⟩ := find_spec found
    exact ⟨result.1, result.2, rfl, by rw [same]; exact numClear_markBit inside free⟩

/-- Clearing a list of bits keeps the number of bits. -/
theorem numBits_foldl_clearBit (bits : List Nat) (bitmap : BitMap) :
    (bits.foldl clearBit bitmap).numBits = bitmap.numBits := by
  induction bits generalizing bitmap with
  | nil => rfl
  | cons bit rest ih => simp [ih]

/-- Clearing a list of bits resets exactly those. -/
theorem testBit_foldl_clearBit (bits : List Nat) (bitmap : BitMap) {which : Nat}
    (inside : which < bitmap.numBits) :
    (bits.foldl clearBit bitmap).testBit which =
      (!decide (which ∈ bits) && bitmap.testBit which) := by
  -- Once a bit has been cleared, clearing further bits leaves it clear.
  induction bits generalizing bitmap with
  | nil => simp
  | cons bit rest ih =>
    rw [List.foldl_cons, ih (bitmap.clearBit bit) (by simpa using inside),
      testBit_clearBit bitmap bit which inside]
    by_cases same : bit = which
    · simp [same]
    · simp [same, Ne.symm same, List.mem_cons]

/-- A new map has the asked number of bits. -/
@[simp] theorem numBits_new (nitems : Nat) (garbage : List (BitVec 32))
    (covers : nitems ≤ bitsInWord * garbage.length) :
    (new nitems garbage covers).numBits = nitems :=
  numBits_foldl_clearBit _ _

/-- Every bit of a new map is clear, whatever the allocator left in the words. -/
theorem testBit_new {nitems : Nat} {garbage : List (BitVec 32)}
    (covers : nitems ≤ bitsInWord * garbage.length) {which : Nat} (inside : which < nitems) :
    (new nitems garbage covers).testBit which = false := by
  rw [new, testBit_foldl_clearBit _ _ inside]
  simp [inside]

end BitMap

end Nachos
