import Mathlib.Algebra.Ring.Int.Defs
import Mathlib.Algebra.Ring.Nat
import Mathlib.Data.Fin.Basic

/-! A memory of cells seen both as a flat array and as equal blocks of adjacent cells. -/

namespace Blocks

universe u

variable {β : Type u}

/-- The contents of one block, indexed by the offset inside it. -/
def block (size : Nat) (memory : Nat → β) (index : Nat) : Fin size → β :=
  fun offset => memory (index * size + offset)

/-- The memory after the whole block has been overwritten. -/
def setBlock (size : Nat) [NeZero size] (memory : Nat → β) (index : Nat) (page : Fin size → β) :
    Nat → β :=
  fun address => if address / size = index then page (Fin.ofNat size address) else memory address

/-- The cells from an address on, as many as were asked for. -/
def cells (memory : Nat → β) (address count : Nat) : List β :=
  (List.range count).map fun offset => memory (address + offset)

/-- The memory after a run of adjacent cells has been overwritten. -/
def setCells (memory : Nat → β) (address : Nat) (values : List β) : Nat → β :=
  fun at_ => if address ≤ at_ then values[at_ - address]?.getD (memory at_) else memory at_

section

variable {size : Nat} [NeZero size]

/-- An offset inside a block identifies the block by division. -/
theorem address_div (index : Nat) (offset : Fin size) :
    (index * size + offset) / size = index := by
  -- The offset is smaller than a block, so it never carries into the quotient.
  rw [Nat.mul_comm, Nat.mul_add_div (Nat.pos_of_neZero size),
    Nat.div_eq_of_lt offset.isLt, Nat.add_zero]

/-- Reading a block just written gives back what was written. -/
@[simp] theorem block_setBlock_same (memory : Nat → β) (index : Nat) (page : Fin size → β) :
    block size (setBlock size memory index page) index = page := by
  funext offset
  have back : Fin.ofNat size (index * size + offset) = offset := by
    apply Fin.ext
    simp [Fin.ofNat, Nat.mod_eq_of_lt offset.isLt]
  simp only [block, setBlock, address_div, if_true, back]

/-- Writing one block leaves every other block alone. -/
theorem block_setBlock_ne (memory : Nat → β) {index other : Nat} (differ : other ≠ index)
    (page : Fin size → β) :
    block size (setBlock size memory index page) other = block size memory other := by
  funext offset
  simp [block, setBlock, address_div, differ]

/-- Reading any block after a block write, with both cases in one equation. -/
theorem block_setBlock (memory : Nat → β) (index other : Nat) (page : Fin size → β) :
    block size (setBlock size memory index page) other =
      if other = index then page else block size memory other := by
  by_cases same : other = index
  · subst same
    simp
  · simp [same, block_setBlock_ne memory same page]

/-- Of two writes to one block the later one remains. -/
@[simp] theorem setBlock_setBlock (memory : Nat → β) (index : Nat) (first second : Fin size → β) :
    setBlock size (setBlock size memory index first) index second =
      setBlock size memory index second := by
  funext address
  simp only [setBlock]
  split <;> rfl

end

/-- As many cells are read as were asked for. -/
@[simp] theorem cells_length (memory : Nat → β) (address count : Nat) :
    (cells memory address count).length = count := by
  simp [cells]

/-- The cell at each place that was asked for. -/
theorem getElem?_cells (memory : Nat → β) (address : Nat) {count offset : Nat}
    (inside : offset < count) :
    (cells memory address count)[offset]? = some (memory (address + offset)) := by
  simp [cells, inside]

/-- Adjacent ranges are read one after the other. -/
theorem cells_add (memory : Nat → β) (address first second : Nat) :
    cells memory address (first + second) =
      cells memory address first ++ cells memory (address + first) second := by
  simp [cells, List.range_add, Nat.add_assoc]

/-- A part of a range is a range. -/
theorem take_drop_cells (memory : Nat → β) (address : Nat) {offset count whole : Nat}
    (inside : offset + count ≤ whole) :
    ((cells memory address whole).drop offset).take count =
      cells memory (address + offset) count := by
  -- The range falls into what is dropped, what is taken and what is left.
  obtain ⟨left, rfl⟩ := Nat.exists_eq_add_of_le inside
  rw [Nat.add_assoc, cells_add, List.drop_left' (cells_length _ _ _), cells_add,
    List.take_left' (cells_length _ _ _)]

/-- Two memories that agree on a range are read alike there. -/
theorem cells_congr {first second : Nat → β} {address count other : Nat}
    (same : ∀ offset, offset < count → first (address + offset) = second (other + offset)) :
    cells first address count = cells second other count := by
  -- The two reads visit the same offsets in the same order.
  apply List.map_congr_left
  intro offset member
  exact same offset (List.mem_range.mp member)

/-- Outside the written range nothing changes. -/
theorem setCells_outside (memory : Nat → β) {address at_ : Nat} {values : List β}
    (outside : at_ < address ∨ address + values.length ≤ at_) :
    setCells memory address values at_ = memory at_ := by
  unfold setCells
  split
  · -- Past the last value the lookup fails and the old cell is read.
    have absent : values[at_ - address]? = none := by
      apply List.getElem?_eq_none
      omega
    simp [absent]
  · rfl

/-- Writing nothing changes nothing. -/
theorem setCells_nil (memory : Nat → β) (address : Nat) : setCells memory address [] = memory := by
  funext at_
  exact setCells_outside memory (by rw [List.length_nil]; omega)

/-- Inside the written range the new values are read. -/
theorem setCells_inside (memory : Nat → β) (address : Nat) {values : List β} {offset : Nat}
    {value : β} (found : values[offset]? = some value) :
    setCells memory address values (address + offset) = value := by
  simp [setCells, found]

/-- What is written into a range is what lies there afterwards. -/
theorem cells_setCells (memory : Nat → β) (address : Nat) (values : List β) :
    cells (setCells memory address values) address values.length = values := by
  apply List.ext_getElem (cells_length _ _ _)
  intro offset inside inside'
  have read := getElem?_cells (setCells memory address values) address inside'
  rw [setCells_inside memory address (List.getElem?_eq_getElem inside')] at read
  exact (List.getElem?_eq_some_iff.mp read).2

/-- Writing a run of one cell. -/
theorem setCells_singleton (memory : Nat → β) (address at_ : Nat) (value : β) :
    setCells memory address [value] at_ = if at_ = address then value else memory at_ := by
  split
  · rename_i same
    simp [setCells, same]
  · rw [setCells_outside]
    rw [List.length_singleton]
    omega

/-- Writing a run is writing its first cell and then the others. -/
theorem setCells_cons (memory : Nat → β) (address : Nat) (value : β) (values : List β) :
    setCells (setCells memory address [value]) (address + 1) values =
      setCells memory address (value :: values) := by
  funext at_
  rcases Nat.lt_trichotomy at_ address with before | rfl | behind
  · rw [setCells_outside _ (.inl (by omega)), setCells_outside _ (.inl before),
      setCells_outside _ (.inl before)]
  · rw [setCells_outside _ (.inl (Nat.lt_succ_self _))]
    simp [setCells]
  · have offset : at_ - address = at_ - (address + 1) + 1 := by omega
    have past : address + 1 ≤ at_ := behind
    simp [setCells, offset, past, Nat.le_of_lt behind]

/-- Copying a range from one memory to another. -/
theorem setCells_cells (memory source : Nat → β) (address start count at_ : Nat) :
    setCells memory address (cells source start count) at_ =
      if address ≤ at_ ∧ at_ < address + count then source (start + (at_ - address))
      else memory at_ := by
  split
  · rename_i inside
    have place := setCells_inside memory address
      (getElem?_cells source start (show at_ - address < count by omega))
    rwa [Nat.add_sub_cancel' inside.1] at place
  · rename_i outside
    apply setCells_outside
    rw [cells_length]
    omega

/-- Equal blocks are read alike, wherever they lie. -/
theorem cells_of_block {first second : Nat → β} {size index other offset count : Nat}
    (same : block size first index = block size second other) (fits : offset + count ≤ size) :
    cells first (index * size + offset) count = cells second (other * size + offset) count := by
  apply cells_congr
  intro step inside
  -- Each cell of the range is a cell of the block.
  have here := congrFun same ⟨offset + step, by omega⟩
  simpa [block, Nat.add_assoc] using here

/-- The contents of a block after a range of its cells has been overwritten. -/
def patch {size : Nat} (page : Fin size → β) (offset : Nat) (values : List β) : Fin size → β :=
  fun at_ => if offset ≤ at_ then values[at_ - offset]?.getD (page at_) else page at_

/-- Overwriting cells inside one block patches that block and leaves the others. -/
theorem block_setCells {size : Nat} (memory : Nat → β) {index offset : Nat} {values : List β}
    (fits : offset + values.length ≤ size) (other : Nat) :
    block size (setCells memory (index * size + offset) values) other =
      if other = index then patch (block size memory index) offset values
      else block size memory other := by
  funext at_
  have small := at_.isLt
  by_cases same : other = index
  · subst same
    have shift : other * size + ↑at_ - (other * size + offset) = at_ - offset := by omega
    simp only [block, setCells, patch, if_true, Nat.add_le_add_iff_left, shift]
  · rw [if_neg same]
    -- A different block lies wholly before or wholly after the written range.
    apply setCells_outside
    rcases Nat.lt_or_gt_of_ne same with before | after
    · left
      have step : (other + 1) * size ≤ index * size := Nat.mul_le_mul_right size before
      rw [Nat.add_mul] at step
      omega
    · right
      have step : (index + 1) * size ≤ other * size := Nat.mul_le_mul_right size after
      rw [Nat.add_mul] at step
      omega

/-- The memory that is seen when every block is looked up where a placement puts it. -/
def placed (size : Nat) (place : Nat → Nat) (memory : Nat → β) : Nat → β :=
  fun address => memory (place (address / size) * size + address % size)

section Placed

variable {size : Nat} [NeZero size] {place : Nat → Nat}

/-- A cell is found in its block, at its offset. -/
theorem eq_block (memory : Nat → β) (address : Nat) :
    memory address = block size memory (address / size)
      ⟨address % size, Nat.mod_lt _ (Nat.pos_of_neZero size)⟩ := by
  simp only [block, Nat.div_add_mod']

/-- The blocks that are seen are the blocks that were placed. -/
@[simp] theorem block_placed (memory : Nat → β) (index : Nat) :
    block size (placed size place memory) index = block size memory (place index) := by
  funext offset
  have rest : (index * size + offset) % size = offset := by
    rw [Nat.mul_comm, Nat.mul_add_mod, Nat.mod_eq_of_lt offset.isLt]
  simp only [block, placed, address_div, rest]

/-- A write inside one placed block is seen where that block is seen, and nowhere else. -/
theorem placed_setCells {count : Nat}
    (apart : ∀ index other, index < count → other < count → place index = place other →
      index = other)
    (memory : Nat → β) {index offset address : Nat} {values : List β} (inside : index < count)
    (fits : offset + values.length ≤ size) (small : address < count * size) :
    placed size place (setCells memory (place index * size + offset) values) address =
      setCells (placed size place memory) (index * size + offset) values address := by
  have within : address / size < count := Nat.div_lt_of_lt_mul (by rwa [Nat.mul_comm] at small)
  -- Two different indices are placed apart, so the same block is written on both sides.
  have same : place (address / size) = place index ↔ address / size = index :=
    ⟨apart _ _ within inside, fun equal => by rw [equal]⟩
  rw [@eq_block β size _ (setCells (placed size place memory) _ values) address,
    block_setCells _ fits, @eq_block β size _ (placed size place _) address, block_placed,
    block_setCells _ fits]
  simp only [same, block_placed]

end Placed

/-- What is known about some of the cells of a block is what they hold. -/
def Matches {size : Nat} (known : Fin size → Option β) (actual : Fin size → β) : Prop :=
  ∀ offset value, known offset = some value → actual offset = value

/-- Overwriting a range keeps what is known true, and what is written becomes known. -/
theorem Matches.patch {size : Nat} {known : Fin size → Option β} {actual : Fin size → β}
    (agree : Matches known actual) (offset : Nat) (values : List β) :
    Matches (Blocks.patch known offset (values.map some)) (Blocks.patch actual offset values) := by
  intro at_ value found
  simp only [Blocks.patch, List.getElem?_map] at found ⊢
  split at found
  · rename_i past
    rw [if_pos past]
    cases located : values[at_.val - offset]? with
    | none => exact agree at_ value (by simpa [located] using found)
    | some written => simpa [located] using found
  · rename_i before
    rw [if_neg before]
    exact agree at_ value found

end Blocks
