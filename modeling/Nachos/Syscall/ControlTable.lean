import Nachos.Userprog.BitMap
import Mathlib.Logic.Function.Basic

/-! `ControlTable`: the objects that user programs name by small numbers. -/

namespace Nachos.Syscall

/-- `TABLE_SIZE`. -/
def tableSize : Nat := 100

/-- A table whose map has one bit for each of its slots. -/
structure ControlTable (α : Type) where
  /-- The array, and the memory around it that an index outside of its bounds reaches. -/
  openObjects : Int → α
  logicalMap : BitMap
  /-- The number of threads that share the table. -/
  usage : Int
  slots : logicalMap.numBits = tableSize

namespace ControlTable

variable {α : Type}

/-- The constructor; `memset` clears as many bytes as the table has slots, and no more. -/
def new [Inhabited α] (cleared : Nat) (garbage : Int → α) (words : List (BitVec 32))
    (covers : tableSize ≤ bitsInWord * words.length) : ControlTable α where
  openObjects := fun index => if 0 ≤ index ∧ index < cleared then default else garbage index
  logicalMap := .new tableSize words covers
  usage := 1
  slots := BitMap.numBits_new ..

/-- Four words have a bit for every slot. -/
theorem fits_fourWords : tableSize ≤ bitsInWord * (List.replicate 4 (-1#32)).length := by decide

/-- The table with an object in a slot that is marked. -/
def store (table : ControlTable α) (id : Nat) (object : α) : ControlTable α where
  openObjects := Function.update table.openObjects id object
  logicalMap := table.logicalMap.markBit id
  usage := table.usage
  slots := table.slots

/-- The table with a slot cleared. -/
def erase [Inhabited α] (table : ControlTable α) (id : Int) : ControlTable α where
  openObjects := Function.update table.openObjects id default
  logicalMap := table.logicalMap.clearBit id.toNat
  usage := table.usage
  slots := table.slots

/-- `ControlTable::Open`; a full table answers -1 and writes in front of its array. -/
def open_ (table : ControlTable α) (object : α) : Int × ControlTable α :=
  match table.logicalMap.find with
  | none => (-1, { table with openObjects := Function.update table.openObjects (-1) object })
  | some (id, _) => (id, table.store id object)

/-- The `ASSERT` at the head of `Close`, `isOpened` and `getObject`. -/
def inTable (id : Int) : Bool := id < tableSize && 0 ≤ id

/-- `ControlTable::isOpened`. -/
def isOpened (table : ControlTable α) (id : Int) : Except Fault Bool :=
  if inTable id then table.logicalMap.test id else .error .assertion

/-- `ControlTable::getObject`; there is none where the source returns an uninitialised variable. -/
def getObject (table : ControlTable α) (id : Int) : Except Fault (Option α) := do
  return if ← table.isOpened id then some (table.openObjects id) else none

/-- `ControlTable::Close`; there is none where the source returns an uninitialised variable. -/
def close [Inhabited α] (table : ControlTable α) (id : Int) :
    Except Fault (Option α × ControlTable α) := do
  if ← table.isOpened id then
    return (some (table.openObjects id), table.erase id)
  else return (none, table)

/-- `ControlTable::getID`. -/
def getID [DecidableEq α] (table : ControlTable α) (object : α) : Int :=
  match (List.range tableSize).find? fun id => table.openObjects id = object with
  | none => -1
  | some id => id

/-- `ControlTable::addThread`. -/
def addThread (table : ControlTable α) : ControlTable α := { table with usage := table.usage + 1 }

/-- `ControlTable::delThread`. -/
def delThread (table : ControlTable α) : ControlTable α := { table with usage := table.usage - 1 }

/-- The object behind an identifier: the table as the partial map it stands for. -/
def entry (table : ControlTable α) (id : Int) : Option α :=
  if inTable id ∧ table.logicalMap.testBit id.toNat = true then some (table.openObjects id) else none

/-- All slots are in use. -/
def Full (table : ControlTable α) : Prop := table.logicalMap.find = none

instance (table : ControlTable α) : Decidable table.Full :=
  decidable_of_iff (table.logicalMap.find.isNone = true) (by simp [Full])

variable {table : ControlTable α} {id : Int} {object : α}

/-- An identifier is a number from zero up to the size of the table. -/
theorem inTable_iff : inTable id = true ↔ 0 ≤ id ∧ id < 100 := by
  have size : ((tableSize : Nat) : Int) = 100 := rfl
  simp only [inTable, size, Bool.and_eq_true, decide_eq_true_eq]
  exact And.comm

/-- Nothing is behind a number that is no identifier. -/
theorem entry_eq_none_of_not (outside : inTable id ≠ true) : table.entry id = none := by
  simp [entry, outside]

/-- Only identifiers are in use. -/
theorem inTable_of_entry (used : table.entry id = some object) : inTable id = true := by
  by_contra outside
  simp [entry_eq_none_of_not outside] at used

/-- `isOpened` fails outside of the table, and else says whether the identifier is in use. -/
theorem isOpened_eq : table.isOpened id =
    if inTable id then .ok (table.entry id).isSome else .error .assertion := by
  unfold isOpened
  split
  · rename_i inside
    have bounds := inTable_iff.mp inside
    have ranged : table.logicalMap.inRange id = true := by
      simp only [BitMap.inRange, table.slots, tableSize, Bool.and_eq_true, decide_eq_true_eq]
      omega
    rw [BitMap.test, if_pos ranged, entry]
    cases table.logicalMap.testBit id.toNat <;> simp [inside]
  · rfl

/-- `getObject` finds what is behind an identifier. -/
theorem getObject_eq : table.getObject id =
    if inTable id then .ok (table.entry id) else .error .assertion := by
  unfold getObject
  rw [isOpened_eq]
  split
  · rename_i inside
    cases used : table.logicalMap.testBit id.toNat with
    | true => simp [entry, inside, used, bind, Except.bind, pure, Except.pure]
    | false => simp [entry, used, bind, Except.bind, pure, Except.pure]
  · rfl

/-- The bits of a table that are in it. -/
theorem toNat_lt (inside : inTable id = true) : id.toNat < table.logicalMap.numBits := by
  have bounds := inTable_iff.mp inside
  rw [table.slots, tableSize]
  omega

/-- A cleared slot is no longer in the map. -/
theorem entry_erase [Inhabited α] (inside : inTable id = true) :
    (table.erase id).entry = Function.update table.entry id none := by
  funext other
  by_cases within : inTable other = true
  · have bit := table.logicalMap.testBit_clearBit id.toNat other.toNat (toNat_lt within)
    by_cases same : other = id
    · subst same
      rw [Function.update_self]
      simp only [decide_true, Bool.not_true, Bool.false_and] at bit
      simp [entry, erase, bit]
    · have apart : id.toNat ≠ other.toNat := by
        have here := inTable_iff.mp within
        have there := inTable_iff.mp inside
        omega
      rw [Function.update_of_ne same]
      simp only [apart, decide_false, Bool.not_false, Bool.true_and] at bit
      simp [entry, erase, Function.update_of_ne same, bit]
  · have apart : other ≠ id := by
      rintro rfl
      exact within inside
    rw [Function.update_of_ne apart, entry_eq_none_of_not within, entry_eq_none_of_not within]

/-- A stored object is in the map. -/
theorem entry_store {id : Nat} (inside : inTable id = true) :
    (table.store id object).entry = Function.update table.entry id (some object) := by
  funext other
  by_cases within : inTable other = true
  · have bit := table.logicalMap.testBit_markBit id other.toNat (toNat_lt within)
    by_cases same : other = id
    · subst same
      rw [Function.update_self]
      simp only [Int.toNat_natCast, decide_true, Bool.true_or] at bit
      simp [entry, store, inside, bit]
    · have apart : id ≠ other.toNat := by
        have here := inTable_iff.mp within
        omega
      rw [Function.update_of_ne same]
      simp only [apart, decide_false, Bool.false_or] at bit
      simp [entry, store, Function.update_of_ne same, bit]
  · have apart : other ≠ id := by
      rintro rfl
      exact within inside
    rw [Function.update_of_ne apart, entry_eq_none_of_not within, entry_eq_none_of_not within]

/-- `Close` takes the entry out of the map, and changes nothing if there is none. -/
theorem close_eq [Inhabited α] : table.close id =
    if inTable id then .ok (table.entry id,
      if (table.entry id).isSome then table.erase id else table)
    else .error .assertion := by
  unfold close
  rw [isOpened_eq]
  split
  · cases used : table.entry id with
    | none => simp [bind, Except.bind, pure, Except.pure]
    | some object =>
      have stored : table.openObjects id = object := by
        unfold entry at used
        split at used
        · exact Option.some.inj used
        · cases used
      simp [stored, bind, Except.bind, pure, Except.pure]
  · rfl

/-- A full table answers -1, and keeps its entries. -/
theorem open_of_full (object : α) (full : table.Full) :
    (table.open_ object).1 = -1 ∧ (table.open_ object).2.entry = table.entry := by
  have answer : table.open_ object =
      (-1, { table with openObjects := Function.update table.openObjects (-1) object }) := by
    unfold open_
    split
    · rfl
    · rename_i found
      rw [full] at found
      cases found
  refine ⟨by rw [answer], funext fun other => ?_⟩
  rw [answer]
  by_cases within : inTable other = true
  · have bounds := inTable_iff.mp within
    have apart : other ≠ -1 := by omega
    simp [entry, Function.update_of_ne apart]
  · rw [entry_eq_none_of_not within, entry_eq_none_of_not within]

/-- A table that is not full has a new entry behind an identifier that was free. -/
theorem open_of_not_full (object : α) (room : ¬ table.Full) :
    inTable (table.open_ object).1 = true ∧ table.entry (table.open_ object).1 = none ∧
      (table.open_ object).2.entry =
        Function.update table.entry (table.open_ object).1 (some object) := by
  unfold open_
  split
  · rename_i full
    exact (room full).elim
  · rename_i id map found
    obtain ⟨below, free, -, -⟩ := BitMap.find_spec found
    have inside : inTable (id : Int) = true := by
      rw [table.slots, tableSize] at below
      rw [inTable_iff]
      omega
    exact ⟨inside, by simp [entry, free], entry_store inside⟩

/-- A new table is empty, whatever the allocator left in it. -/
theorem entry_new [Inhabited α] (cleared : Nat) (garbage : Int → α) (words : List (BitVec 32))
    (covers : tableSize ≤ bitsInWord * words.length) (id : Int) :
    (new cleared garbage words covers).entry id = none := by
  by_cases inside : inTable id = true
  · have bounds := inTable_iff.mp inside
    have below : id.toNat < tableSize := by
      rw [tableSize]
      omega
    simp [entry, new, BitMap.testBit_new covers below]
  · exact entry_eq_none_of_not inside

/-- `Open` takes the first slot that is free. -/
theorem open_of_first {which : Nat} (object : α) (inside : inTable which = true)
    (free : table.entry which = none)
    (before : ∀ earlier : Nat, earlier < which → (table.entry earlier).isSome) :
    ¬ table.Full ∧ (table.open_ object).1 = which := by
  have room : ¬ table.Full := by
    intro full
    have used := BitMap.find_eq_none.mp full which (by simpa using toNat_lt inside)
    simp [entry, inside, used] at free
  refine ⟨room, ?_⟩
  unfold open_
  split
  · rename_i full
    exact (room full).elim
  · rename_i id map found
    obtain ⟨below, clear, -, earlier⟩ := BitMap.find_spec found
    rcases Nat.lt_trichotomy id which with less | same | more
    · -- A free slot before this one is impossible.
      have used := before id less
      simp [entry, clear] at used
    · exact congrArg Int.ofNat same
    · have used := earlier which more
      simp [entry, inside, used] at free

/-- The first slot that is free holds the new entry. -/
theorem entry_open_first {which : Nat} (object : α) (inside : inTable which = true)
    (free : table.entry which = none)
    (before : ∀ earlier : Nat, earlier < which → (table.entry earlier).isSome) :
    (table.open_ object).2.entry = Function.update table.entry which (some object) := by
  obtain ⟨room, taken⟩ := open_of_first object inside free before
  rw [(open_of_not_full object room).2.2, taken]

end ControlTable

end Nachos.Syscall
