import Nachos.Lib.Runs
import Nachos.Syscall.ControlTable

/-! `ControlTable` as a finite map from handles to objects, over whole runs of `Open` and `Close`. -/

namespace Nachos.Syscall

namespace ControlTable

variable {α : Type} {table : ControlTable α} {id : Int} {object : α}

/-- What is behind an identifier in use lies in its slot. -/
theorem openObjects_of_entry (used : table.entry id = some object) :
    table.openObjects id = object := by
  unfold entry at used
  split at used
  · exact Option.some.inj used
  · cases used

/-- A table whose map has no clear bit has all identifiers in use. -/
theorem entry_of_full (full : table.Full) (inside : inTable id = true) :
    (table.entry id).isSome := by
  have bounds := inTable_iff.mp inside
  have set := BitMap.find_eq_none.mp full id.toNat (toNat_lt inside)
  simp [entry, inside, set]

/-- Where a table with room puts a new entry: behind entries that are all in use. -/
theorem open_eq_store (object : α) (room : ¬ table.Full) :
    ∃ id : Nat, inTable id = true ∧ table.entry id = none ∧
      table.open_ object = ((id : Int), table.store id object) ∧
      ∀ below : Int, 0 ≤ below → below < id → (table.entry below).isSome := by
  unfold open_
  split
  · -- `Find` fails only when every bit is set.
    rename_i full
    exact (room full).elim
  · rename_i id map found
    -- `Find` gives the first bit that is clear, so all bits below it are set.
    obtain ⟨below, free, -, before⟩ := BitMap.find_spec found
    have inside : inTable (id : Int) = true := by
      rw [table.slots, tableSize] at below
      rw [inTable_iff]
      omega
    refine ⟨id, inside, by simp [entry, free], rfl, ?_⟩
    intro lower natural less
    have set := before lower.toNat (by omega)
    have bounds := inTable_iff.mp inside
    have within : inTable lower = true := inTable_iff.mpr (by omega)
    simp [entry, within, set]

/-- Below an identifier in use, the slots that are free have been cleared by `Close`. -/
def Written [Inhabited α] (table : ControlTable α) : Prop :=
  ∀ id below, (table.entry id).isSome → 0 ≤ below → below < id → table.entry below = none →
    table.openObjects below = default

section Written

variable [Inhabited α]

/-- A new entry has no free slot below it. -/
theorem Written.store (written : table.Written) {slot : Nat} (inside : inTable slot = true)
    (before : ∀ below : Int, 0 ≤ below → below < slot → (table.entry below).isSome) :
    (table.store slot object).Written := by
  intro id below used natural less unused
  rw [entry_store inside] at used unused
  -- The slot has just been filled, so it is not the one that is unused.
  have differ : below ≠ slot := by
    rintro rfl
    simp at unused
  have kept : (table.store slot object).openObjects below = table.openObjects below :=
    Function.update_of_ne differ _ _
  rw [Function.update_of_ne differ] at unused
  rw [kept]
  by_cases new : id = slot
  · -- All slots below the new entry are in use.
    have taken := before below natural (new ▸ less)
    simp [unused] at taken
  · -- Every other identifier in use was in use before, with the same slots below it.
    rw [Function.update_of_ne new] at used
    exact written id below used natural less unused

/-- `Close` clears the slot it frees. -/
theorem Written.erase (written : table.Written) (inside : inTable id = true) :
    (table.erase id).Written := by
  intro other below used natural less unused
  rw [entry_erase inside] at used unused
  -- The slot that is freed has just been cleared.
  by_cases same : below = id
  · subst same
    exact Function.update_self _ _ _
  · -- A slot that was free before has been cleared by an earlier `Close`.
    rw [Function.update_of_ne same] at unused
    have differ : other ≠ id := by
      rintro rfl
      simp at used
    rw [Function.update_of_ne differ] at used
    exact (Function.update_of_ne same _ _).trans (written other below used natural less unused)

/-- An empty table has no slot below an identifier in use. -/
theorem written_of_empty (empty : ∀ id, table.entry id = none) : table.Written := by
  intro id below used
  simp [empty] at used

end Written

/-- One use of a table by the kernel. -/
inductive Use (α : Type) where
  | open_ (object : α)
  | close (id : Int)

/-- What became of a handle. -/
inductive Handle (α : Type) where
  | opened (id : Int) (object : α)
  | closed (id : Int)
  deriving DecidableEq

/-- The table behind one use. -/
def use [Inhabited α] (table : ControlTable α) : Use α → Except Fault (ControlTable α)
  | .open_ object => .ok (table.open_ object).2
  | .close id => do
    let (_, table) ← table.close id
    return table

/-- Which handle a use has given out or taken back. -/
def observeUse (before : ControlTable α) (use : Use α) (_ : ControlTable α) : List (Handle α) :=
  match use with
  | .open_ object => [.opened (before.open_ object).1 object]
  | .close id => [.closed id]

/-- `Open` is called while an identifier is free, and `Close` for one that is open. -/
def Proper (table : ControlTable α) : Use α → Prop
  | .open_ _ => ∃ id, table.isOpened id = .ok false
  | .close id => table.isOpened id = .ok true

/-- A table as its constructor leaves it, with any number of cleared slots and any garbage. -/
def Fresh [Inhabited α] (table : ControlTable α) : Prop :=
  ∃ cleared garbage words covers, table = new cleared garbage words covers

/-- What a history tells about every handle. -/
def Handle.apply (handles : Int → Option α) : Handle α → Int → Option α
  | .opened id object => Function.update handles id (some object)
  | .closed id => Function.update handles id none

/-- The object of the latest `Open` that returned an identifier, until it is closed. -/
def handles (history : List (Handle α)) : Int → Option α :=
  history.foldl Handle.apply fun _ => none

section Laws

/-- An identifier is open when the map has something behind it. -/
theorem isOpened_true : table.isOpened id = .ok true ↔ (table.entry id).isSome = true := by
  rw [isOpened_eq]
  by_cases inside : inTable id = true
  · simp [inside]
  · -- Outside of the table there is no entry, and `isOpened` does not answer.
    simp [inside, entry_eq_none_of_not inside]

/-- An identifier that is not open is one that the map has nothing behind. -/
theorem isOpened_false :
    table.isOpened id = .ok false ↔ inTable id = true ∧ table.entry id = none := by
  rw [isOpened_eq]
  by_cases inside : inTable id = true
  · simp [inside]
  · simp [inside]

/-- While an identifier is free, the table is not full. -/
theorem not_full (free : table.isOpened id = .ok false) : ¬ table.Full := by
  -- In a full table the identifier would be in use.
  intro full
  obtain ⟨inside, unused⟩ := isOpened_false.mp free
  have used := entry_of_full full inside
  simp [unused] at used

/-- The first slot with an object is found by `getID`, whether it is in use or not. -/
theorem getID_spec [DecidableEq α] (used : table.entry id = some object) :
    ∃ slot : Nat, table.getID object = slot ∧ (slot : Int) ≤ id ∧
      table.openObjects slot = object := by
  have bounds := inTable_iff.mp (inTable_of_entry used)
  have here := openObjects_of_entry used
  have numbers : (do
      let slot ← List.range tableSize
      pure (slot : Int)) = (List.range tableSize).map fun slot : Nat => (slot : Int) :=
    List.flatMap_pure_eq_map _ _
  rw [getID, numbers, List.find?_map, Function.comp_def]
  cases located : (List.range tableSize).find? (fun slot : Nat =>
      table.openObjects slot = object) with
  | none =>
    -- The search cannot pass the slot the object is known to be in.
    have missed := List.find?_eq_none.mp located id.toNat
      (List.mem_range.mpr (by rw [tableSize]; omega))
    rw [Int.toNat_of_nonneg bounds.1] at missed
    exact absurd (by simpa using here) missed
  | some slot =>
    -- The search stops at the slot of the object at the latest.
    refine ⟨slot, rfl, ?_, by simpa using List.find?_some located⟩
    by_contra later
    have skipped := (List.find?_range_eq_some.mp located).2.2 id.toNat (by omega)
    rw [Int.toNat_of_nonneg bounds.1] at skipped
    simp [here] at skipped

/-- An object that is open is found behind an identifier that is open, if it is not zero. -/
theorem Written.entry_getID [Inhabited α] [DecidableEq α] (written : table.Written)
    (used : table.entry id = some object) (nonzero : object ≠ default) :
    table.entry (table.getID object) = some object := by
  obtain ⟨slot, same, before, stored⟩ := getID_spec used
  rw [same]
  cases held : table.entry slot with
  -- A slot that is in use and holds the object is an entry for it.
  | some other => rw [← openObjects_of_entry held, stored]
  | none =>
    -- A free slot with a lower number has been cleared, and the object is not zero.
    have differ : (slot : Int) ≠ id := by
      rintro rfl
      rw [used] at held
      cases held
    have clear := written id slot (by rw [used]; rfl) (Int.natCast_nonneg slot) (by omega) held
    exact absurd (stored.symm.trans clear) nonzero

end Laws

/-- The map a table stands for is the one its history tells, and its free slots are clear. -/
theorem handles_eq [Inhabited α] {history : List (Handle α)}
    (traced : Runs.Traced use Fresh Proper observeUse table history) :
    table.entry = handles history ∧ table.Written := by
  refine traced.invariant
    (fun (table : ControlTable α) (history : List (Handle α)) =>
      table.entry = handles history ∧ table.Written) ?_ ?_
  · -- A new table is empty, whatever its arrays hold.
    rintro table ⟨cleared, garbage, words, covers, rfl⟩
    have empty := entry_new cleared garbage words covers
    exact ⟨funext empty, written_of_empty empty⟩
  · intro table action after history kept proper used
    obtain ⟨same, written⟩ := kept
    rw [handles, List.foldl_append]
    cases action with
    -- `Open` takes the first free slot, which is unused in the history as well.
    | open_ object =>
      obtain ⟨free, unused⟩ := proper
      obtain ⟨slot, inside, -, opened, before⟩ := open_eq_store object (not_full unused)
      simp only [use, Except.ok.injEq] at used
      subst used
      rw [observeUse, opened]
      refine ⟨?_, written.store inside before⟩
      rw [entry_store inside, same]
      rfl
    -- `Close` gets an identifier that is open, so it frees its slot.
    | close id =>
      have opened := isOpened_true.mp proper
      have inside : inTable id = true := by
        obtain ⟨object, held⟩ := Option.isSome_iff_exists.mp opened
        exact inTable_of_entry held
      simp only [use, close_eq, inside, opened, if_true, Runs.ok_bind] at used
      obtain rfl := Except.ok.inj used
      refine ⟨?_, written.erase inside⟩
      rw [entry_erase inside, same]
      rfl

/-- After any run of `Open` with room and `Close` of open identifiers, the table answers as its
history tells: `isOpened`, `getObject` and `Close` know the latest object of every identifier,
`Open` takes the least one that is free, and `getID` finds every object but zero. -/
theorem answers_handles [Inhabited α] [DecidableEq α] {history : List (Handle α)}
    (traced : Runs.Traced use Fresh Proper observeUse table history) :
    (∀ id, inTable id = true → table.isOpened id = .ok (handles history id).isSome ∧
      table.getObject id = .ok (handles history id)) ∧
    (∀ id, (handles history id).isSome →
      ∃ after, table.close id = .ok (handles history id, after)) ∧
    (∀ object, (∃ id, table.isOpened id = .ok false) →
      inTable (table.open_ object).1 = true ∧ handles history (table.open_ object).1 = none ∧
        ∀ below, 0 ≤ below → below < (table.open_ object).1 → (handles history below).isSome) ∧
    (∀ object, object ≠ default → (∃ id, handles history id = some object) →
      handles history (table.getID object) = some object) := by
  obtain ⟨same, written⟩ := handles_eq traced
  rw [← same]
  refine ⟨?_, ?_, ?_, ?_⟩
  · -- Inside the table both questions are answered from the entry.
    intro id inside
    rw [isOpened_eq, getObject_eq, if_pos inside, if_pos inside]
    exact ⟨rfl, rfl⟩
  · -- An identifier with an object is inside the table, and `Close` returns this object.
    intro id opened
    have known := isOpened_true.mpr opened
    have inside : inTable id = true := by
      by_contra outside
      simp [isOpened_eq, outside] at known
    exact ⟨_, by rw [close_eq, if_pos inside]⟩
  · -- While some identifier is free there is room, and the new slot is the first free one.
    rintro object ⟨id, free⟩
    obtain ⟨slot, inside, unused, opened, before⟩ := open_eq_store object (not_full free)
    rw [opened]
    exact ⟨inside, unused, before⟩
  · -- No slot in front of the right one holds the object, because the free ones are cleared.
    rintro object nonzero ⟨id, used⟩
    exact written.entry_getID used nonzero

/-- A table of numbers with garbage behind the part that is cleared. -/
def numbers : ControlTable Int :=
  new 25 (fun _ => 7) (List.replicate 4 (-1#32)) fits_fourWords

/-- Two objects were opened, and the first one was closed. -/
def closedFirst : List (Handle Int) := [.opened 0 5, .opened 1 6, .closed 0]

/-- The second object keeps its identifier and is found under it, and the identifier of the first
one is the next one given out. -/
theorem answers_numbers :
    ∃ table, use ((numbers.open_ 5).2.open_ 6).2 (.close 0) = .ok table ∧
      table.getObject 1 = .ok (some 6) ∧ handles closedFirst (table.getID 6) = some 6 ∧
      handles closedFirst (table.open_ 8).1 = none := by
  -- The run opens 5 and 6 and closes the first of them.
  have start : Runs.Traced use Fresh Proper observeUse numbers [] := .start ⟨_, _, _, _, rfl⟩
  have first : Proper numbers (.open_ 5) := ⟨0, by decide +kernel⟩
  have second : Proper (numbers.open_ 5).2 (.open_ 6) := ⟨1, by decide +kernel⟩
  have used : ((numbers.open_ 5).2.open_ 6).2.isOpened 0 = .ok true := by decide +kernel
  have third : Proper ((numbers.open_ 5).2.open_ 6).2 (.close 0) := used
  have opened := (start.next first rfl).next second rfl
  have known : [] ++ observeUse numbers (.open_ 5) (numbers.open_ 5).2 ++
      observeUse (numbers.open_ 5).2 (.open_ 6) ((numbers.open_ 5).2.open_ 6).2 =
      [.opened 0 5, .opened 1 6] := by decide +kernel
  rw [known] at opened
  obtain ⟨table, closed⟩ := (answers_handles opened).2.1 0 rfl
  have closing : use ((numbers.open_ 5).2.open_ 6).2 (.close 0) = .ok table := by
    rw [use, closed]
    rfl
  have traced : Runs.Traced use Fresh Proper observeUse table closedFirst :=
    .next opened third closing
  obtain ⟨answers, -, least, found⟩ := answers_handles traced
  -- The three questions are answered by the history of this run.
  refine ⟨table, closing, (answers 1 rfl).2, found 6 (by decide) ⟨1, rfl⟩, ?_⟩
  exact (least 8 ⟨0, (answers 0 rfl).1⟩).2.1

end ControlTable

end Nachos.Syscall
