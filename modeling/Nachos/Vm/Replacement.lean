import Mathlib.Data.Nat.Find
import Mathlib.Data.Nat.ModEq
import Nachos.Vm.SecondChance

/-! Second chance over any table: which entry both overloads return, and what they leave behind. -/

namespace Nachos.Vm

/-- The loop goes past an entry that was used and is valid. -/
def inUse (entry : TranslationEntry) : Bool := entry.use && entry.valid

/-- `AddrSpace::secondChance` over an array of entries: the array, the slot, and the new index. -/
def secondChanceEntries (table : List TranslationEntry) (index range : Nat) :
    Except Fault (List TranslationEntry × Nat × Nat) := do
  -- The index only ever takes values below the range, so one turn more than the range is enough.
  let (table, swapPage) ← secondChanceLoop (fun entries position => entries[position]?)
    (fun entries position => entries.modify position clearUse) range (range + 1) table index
  -- This overload moves the caller's index past the slot it returns.
  return (table, swapPage, (swapPage + 1) % range)

/-- `AddrSpace::secondChance` over an array of pointers to page-table entries. -/
def secondChancePointers (refs : List PageRef) (table : InvertedTable) (index range : Nat) :
    Except Fault (InvertedTable × Nat × Nat) := do
  -- A pointer is followed to the page table of its thread on every access.
  let (table, index) ← secondChanceLoop (fun table position => refs[position]?.bind table.entry)
    (fun table position => match refs[position]? with
      | none => table
      | some ref => table.modifyEntry ref clearUse)
    range (range + 1) table index
  -- The caller's index is the loop variable itself here, so it stays on the chosen pointer.
  return (table, index, index)

/-- The position a number of steps behind an index, round and round. -/
def around (range index offset : Nat) : Nat := (index + offset) % range

/-- A step of the index is one step on the way round. -/
theorem around_succ (range index offset : Nat) :
    around range ((index + 1) % range) offset = around range index (offset + 1) := by
  unfold around
  rw [Nat.mod_add_mod, Nat.add_right_comm, Nat.add_assoc]

/-- No step at all leaves the index where it is. -/
theorem around_zero {range index : Nat} (inside : index < range) : around range index 0 = index :=
  Nat.mod_eq_of_lt inside

/-- A whole round comes back to the index. -/
theorem around_range {range index : Nat} (inside : index < range) :
    around range index range = index := by
  rw [around, Nat.add_mod_right, Nat.mod_eq_of_lt inside]

/-- Within one round no position comes twice. -/
theorem around_inj {range index first second : Nat} (one : first < range) (two : second < range)
    (same : around range index first = around range index second) : first = second := by
  -- The two positions agree modulo the range, and so do the offsets once the index is cancelled.
  have steps : first ≡ second [MOD range] := Nat.ModEq.add_left_cancel' index same
  rwa [Nat.ModEq, Nat.mod_eq_of_lt one, Nat.mod_eq_of_lt two] at steps

/-- A property holds of all numbers below a bound, or there is a first one of which it does not. -/
theorem exists_leading (P : Nat → Prop) (bound : Nat) :
    ∃ count ≤ bound, (∀ number < count, P number) ∧ (count < bound → ¬ P count) := by
  classical
  by_cases ends : ∃ number, number < bound ∧ ¬ P number
  · -- The first number without the property has it for all numbers before it.
    obtain ⟨below, fails⟩ := Nat.find_spec ends
    refine ⟨Nat.find ends, below.le, fun number earlier => ?_, fun _ => fails⟩
    by_contra also
    exact Nat.find_min ends earlier ⟨by omega, also⟩
  · refine ⟨bound, le_rfl, fun number below => ?_, fun less => absurd less (lt_irrefl _)⟩
    by_contra fails
    exact ends ⟨number, below, fails⟩

section Search

variable {σ : Type} {entryAt : σ → Nat → Option TranslationEntry} {reset : σ → Nat → σ}
  {range : Nat}

/-- The table when the search has passed over a number of entries from the index on. -/
def passOver (reset : σ → Nat → σ) (range : Nat) : Nat → σ → Nat → σ
  | 0, state, _ => state
  | count + 1, state, index => passOver reset range count (reset state index) ((index + 1) % range)

/-- The search passes over entries that are in use and have a frame, and stops at one that is not. -/
theorem secondChanceLoop_passes {count fuel : Nat} {state : σ} {index : Nat}
    (enough : count < fuel) (inside : index < range)
    (used : ∀ offset < count, ∃ entry, entryAt (passOver reset range offset state index)
      (around range index offset) = some entry ∧ inUse entry = true ∧
        entry.physicalPage ≠ noPhysicalPage)
    (stops : ∃ entry, entryAt (passOver reset range count state index)
      (around range index count) = some entry ∧ inUse entry = false) :
    secondChanceLoop entryAt reset range fuel state index =
      .ok (passOver reset range count state index, around range index count) := by
  -- One turn of the loop for each entry that is passed over.
  induction count generalizing fuel state index with
  | zero =>
    -- The entry at the index itself stops the loop.
    obtain ⟨entry, located, free⟩ := stops
    rw [around_zero inside] at located ⊢
    obtain ⟨fuel, rfl⟩ := Nat.exists_eq_succ_of_ne_zero (by omega : fuel ≠ 0)
    exact secondChanceLoop_here located free
  | succ count ih =>
    obtain ⟨fuel, rfl⟩ := Nat.exists_eq_succ_of_ne_zero (by omega : fuel ≠ 0)
    -- The loop resets the first entry and goes on from the next index, with one entry less to pass.
    obtain ⟨entry, located, chance, framed⟩ := used 0 (by omega)
    rw [around_zero inside, passOver] at located
    have next : (index + 1) % range < range := Nat.mod_lt _ (by omega)
    have later : ∀ offset < count, ∃ entry, entryAt (passOver reset range offset
        (reset state index) ((index + 1) % range)) (around range ((index + 1) % range) offset) =
          some entry ∧ inUse entry = true ∧ entry.physicalPage ≠ noPhysicalPage := by
      intro offset within
      rw [around_succ]
      exact used (offset + 1) (by omega)
    rw [← around_succ] at stops
    have rest := ih (by omega : count < fuel) next later stops
    -- What is left is the same loop with one turn less, from an index one further.
    rw [around_succ] at rest
    have again : (entry.use && entry.valid) = true := chance
    simp only [secondChanceLoop, located, again, inside, if_true, framed, ne_eq, not_false_eq_true]
    exact rest

variable {Key : Type} [DecidableEq Key] {keyAt : Nat → Option Key}
  {read : σ → Key → Option TranslationEntry}

/-- A key is among the first few from the index on. -/
def PassedOver (keyAt : Nat → Option Key) (range index count : Nat) (key : Key) : Prop :=
  ∃ offset < count, keyAt (around range index offset) = some key

instance (keyAt : Nat → Option Key) (range index count : Nat) (key : Key) :
    Decidable (PassedOver keyAt range index count key) :=
  inferInstanceAs (Decidable (∃ offset < count, keyAt (around range index offset) = some key))

/-- Passing over entries resets their use bits, and changes nothing else. -/
theorem read_passOver
    (resets : ∀ state position key, read (reset state position) key =
      if keyAt position = some key then (read state key).map clearUse else read state key)
    {count : Nat} {state : σ} {index : Nat} (inside : index < range) (key : Key) :
    read (passOver reset range count state index) key =
      if PassedOver keyAt range index count key then (read state key).map clearUse
      else read state key := by
  induction count generalizing state index with
  | zero =>
    have nothing : ¬ PassedOver keyAt range index 0 key := fun ⟨_, below, _⟩ => by omega
    -- Nothing has been passed over yet.
    rw [passOver, if_neg nothing]
  | succ count ih =>
    have next : (index + 1) % range < range := Nat.mod_lt _ (by omega)
    -- Either the key is the one at the index, or it comes in the rest of the way.
    have either : PassedOver keyAt range index (count + 1) key ↔
        keyAt index = some key ∨ PassedOver keyAt range ((index + 1) % range) count key := by
      constructor
      · rintro ⟨offset, within, named⟩
        cases offset with
        | zero => exact .inl (by rwa [around_zero inside] at named)
        | succ offset => exact .inr ⟨offset, by omega, by rwa [around_succ]⟩
      · rintro (named | ⟨offset, within, named⟩)
        · exact ⟨0, by omega, by rwa [around_zero inside]⟩
        · exact ⟨offset + 1, by omega, by rwa [around_succ] at named⟩
    rw [passOver, ih next, resets]
    by_cases here : keyAt index = some key
    · rw [if_pos here, if_pos (either.mpr (.inl here))]
      -- Resetting a use bit twice is resetting it once.
      split
      · rw [Option.map_map]
        rfl
      · rfl
    · simp only [if_neg here, either, or_iff_right here]

/-- How far the search goes: past entries that are in use, to the first one that is not. -/
structure Chosen (entryAt : Nat → Option TranslationEntry) (range index count slot : Nat) :
    Prop where
  place : slot = around range index count
  most : count ≤ range
  used : ∀ offset < count, ∃ entry, entryAt (around range index offset) = some entry ∧
    inUse entry = true
  free : count < range → ∃ entry, entryAt slot = some entry ∧ inUse entry = false
  /-- If all entries are in use, the search comes back to where it started. -/
  start : count = range → slot = index

/-- The search ends after at most a round. -/
theorem secondChanceLoop_chosen
    (resets : ∀ state position key, read (reset state position) key =
      if keyAt position = some key then (read state key).map clearUse else read state key)
    (distinct : ∀ first < range, ∀ second < range, keyAt first = keyAt second → first = second)
    {state : σ} {index : Nat} (inside : index < range)
    (defined : ∀ position < range, ∃ entry, (keyAt position).bind (read state) = some entry ∧
      (inUse entry = true → entry.physicalPage ≠ noPhysicalPage)) :
    ∃ count slot, Chosen (fun position => (keyAt position).bind (read state)) range index count
        slot ∧
      secondChanceLoop (fun state position => (keyAt position).bind (read state)) reset range
        (range + 1) state index = .ok (passOver reset range count state index, slot) := by
  have positive : 0 < range := by omega
  have bounded (offset : Nat) : around range index offset < range := Nat.mod_lt _ positive
  -- An entry that has not been passed over yet is as it was.
  have fresh (offset : Nat) (below : offset < range) :
      (keyAt (around range index offset)).bind
          (read (passOver reset range offset state index)) =
        (keyAt (around range index offset)).bind (read state) := by
    cases named : keyAt (around range index offset) with
    | none => rfl
    | some key =>
      -- The keys on the way are different, so an entry is passed over once in a round at most.
      have early : ¬ PassedOver keyAt range index offset key := by
        rintro ⟨earlier, less, met⟩
        have same := distinct _ (bounded earlier) _ (bounded offset) (met.trans named.symm)
        have again := around_inj (by omega) below same
        omega
      rw [Option.bind_some, Option.bind_some, read_passOver resets inside key, if_neg early]
  -- The search goes on up to the first entry that is not in use, or all the way round.
  obtain ⟨count, most, used, ends⟩ := exists_leading (fun offset => ∃ entry,
    (keyAt (around range index offset)).bind (read state) = some entry ∧ inUse entry = true) range
  have free (less : count < range) : ∃ entry,
      (keyAt (around range index count)).bind (read state) = some entry ∧
        inUse entry = false := by
    obtain ⟨entry, located, -⟩ := defined _ (bounded count)
    refine ⟨entry, located, ?_⟩
    rw [← Bool.not_eq_true]
    exact fun chance => ends less ⟨entry, located, chance⟩
  have start (whole : count = range) : around range index count = index := by
    rw [whole, around_range inside]
  refine ⟨count, around range index count, ⟨rfl, most, used, free, start⟩,
    secondChanceLoop_passes (by omega) inside ?_ ?_⟩
  · -- The entries before that one are in use when the search gets there.
    intro offset below
    obtain ⟨entry, located, chance⟩ := used offset below
    obtain ⟨other, again, framed⟩ := defined _ (bounded offset)
    obtain rfl : entry = other := Option.some.inj (located.symm.trans again)
    exact ⟨entry, (fresh offset (by omega)).trans located, chance, framed chance⟩
  · rcases Nat.lt_or_eq_of_le most with less | whole
    · -- The search stops at an entry that was not in use to begin with.
      obtain ⟨entry, located, chance⟩ := free less
      exact ⟨entry, (fresh count less).trans located, chance⟩
    · -- After a whole round the start has lost its use bit.
      obtain ⟨entry, located, -⟩ := defined index inside
      cases named : keyAt index with
      | none => simp [named] at located
      | some key =>
        rw [named, Option.bind_some] at located
        have met : PassedOver keyAt range index count key :=
          ⟨0, by omega, by rw [around_zero inside, named]⟩
        refine ⟨clearUse entry, ?_, rfl⟩
        rw [start whole, named, Option.bind_some, read_passOver resets inside key, if_pos met,
          located, Option.map_some]

end Search

/-- The overload over entries: the chosen slot, with the index moved past it. -/
theorem secondChanceEntries_chosen {table : List TranslationEntry} {index range : Nat}
    (length : table.length = range) (inside : index < range)
    (framed : ∀ entry ∈ table, inUse entry = true → entry.physicalPage ≠ noPhysicalPage) :
    ∃ count after slot next,
      secondChanceEntries table index range = .ok (after, slot, next) ∧
      Chosen (fun position => table[position]?) range index count slot ∧
      next = (slot + 1) % range ∧ next < range ∧
      ∀ position, after[position]? = if PassedOver some range index count position then
        table[position]?.map clearUse else table[position]? := by
  -- Resetting a slot is seen through that slot and through no other one.
  have resets (entries : List TranslationEntry) (position other : Nat) :
      (entries.modify position clearUse)[other]? =
        if some position = some other then entries[other]?.map clearUse else entries[other]? := by
    simp only [List.getElem?_modify, Option.some.injEq]
    split <;> simp
  obtain ⟨count, slot, chosen, found⟩ := @secondChanceLoop_chosen (List TranslationEntry)
    (fun entries position => entries.modify position clearUse) range Nat _ some
    (fun entries position => entries[position]?) resets
    (fun first _ second _ same => Option.some.inj same) table index inside
    (fun position within => ⟨table[position], List.getElem?_eq_getElem _,
      framed _ (List.getElem_mem _)⟩)
  -- The array afterwards is the old one with the use bits on the way cleared.
  have changed := @read_passOver (List TranslationEntry)
    (fun entries position => entries.modify position clearUse) range Nat _ some
    (fun entries position => entries[position]?) resets count table index inside
  exact ⟨count, passOver (fun entries position => entries.modify position clearUse) range count
    table index, slot, (slot + 1) % range, Runs.bind_eq_ok.mpr ⟨_, found, rfl⟩, chosen, rfl,
    Nat.mod_lt _ (by omega), changed⟩

/-- `entries[i]->use = false`: the use bit behind a pointer is reset. -/
def clearPointer (refs : List PageRef) (table : InvertedTable) (position : Nat) : InvertedTable :=
  match refs[position]? with
  | none => table
  | some ref => table.modifyEntry ref clearUse

/-- The overload over pointers: the chosen pointer, with the index left on it. -/
theorem secondChancePointers_chosen {refs : List PageRef} {table : InvertedTable}
    {index range : Nat} (length : refs.length = range) (distinct : refs.Nodup)
    (inside : index < range)
    (framed : ∀ ref ∈ refs, ∃ entry, table.entry ref = some entry ∧
      (inUse entry = true → entry.physicalPage ≠ noPhysicalPage)) :
    ∃ count after slot,
      secondChancePointers refs table index range = .ok (after, slot, slot) ∧
      Chosen (fun position => refs[position]?.bind table.entry) range index count slot ∧
      slot < range ∧ after.getKeys = table.getKeys ∧
      (∀ thread, after.home thread = table.home thread) ∧
      ∀ ref, after.entry ref =
        if PassedOver (fun position => refs[position]?) range index count ref then
          (table.entry ref).map clearUse
        else table.entry ref := by
  -- Resetting through a pointer changes the entry it points to.
  have resets (table : InvertedTable) (position : Nat) (ref : PageRef) :
      (clearPointer refs table position).entry ref =
        if refs[position]? = some ref then (table.entry ref).map clearUse
        else table.entry ref := by
    unfold clearPointer
    cases refs[position]? with
    | none => simp
    | some other => simp only [InvertedTable.entry_modifyEntry, Option.some.injEq, eq_comm]
  -- The pointers are different, so their positions are told apart by them.
  have apart (first : Nat) (one : first < range) (second : Nat) (_ : second < range)
      (same : refs[first]? = refs[second]?) : first = second :=
    (List.getElem?_inj (length ▸ one) distinct).mp same
  obtain ⟨count, slot, chosen, found⟩ := @secondChanceLoop_chosen InvertedTable (clearPointer refs)
    range PageRef _ (fun position => refs[position]?) InvertedTable.entry resets apart table index
    inside
    (fun position within => by
      have present : position < refs.length := length ▸ within
      rw [List.getElem?_eq_getElem present]
      exact framed _ (List.getElem_mem _))
  -- The loop writes use bits only, whatever the pointers are.
  obtain ⟨same, -⟩ := secondChanceLoop_related InvertedTable.SameButUse
    InvertedTable.SameButUse.refl (fun _ _ _ left right => left.trans right)
    (fun table position => by
      unfold clearPointer
      split
      · exact InvertedTable.SameButUse.refl table
      · exact InvertedTable.SameButUse.clear table _) found
  have inRange : slot < range := by
    rw [chosen.place]
    exact Nat.mod_lt _ (by omega)
  have changed := @read_passOver InvertedTable (clearPointer refs) range PageRef _
    (fun position => refs[position]?) InvertedTable.entry resets count table index inside
  exact ⟨count, passOver (clearPointer refs) range count table index, slot,
    Runs.bind_eq_ok.mpr ⟨_, found, rfl⟩, chosen, inRange, same.keys, same.homes, changed⟩

/-- The fault handler calls the first overload with the TLB. -/
theorem secondChanceEntries_tlb (tlb : List TranslationEntry) (index : Nat) :
    secondChanceEntries tlb index tlbSize = do
      let (tlb, slot) ← secondChanceTlb tlb index
      return (tlb, slot, (slot + 1) % tlbSize) := rfl

/-- The fault handler and `FindPage` call the second overload with the pointers they collect. -/
theorem secondChancePointers_table (refs : List PageRef) (table : InvertedTable) (index : Nat) :
    secondChancePointers refs table index numPhysPages = do
      let (table, index) ← secondChanceTable refs table index
      return (table, index, index) := rfl

/--
Both overloads end, at the first entry from the index on that is not both used and valid.

If there is none they come back to the entry they started at. They reset the use bits of exactly
the entries they passed over, and leave an index inside the table.
-/
theorem secondChance_takes_first :
    (∀ (table : List TranslationEntry) (index range : Nat), table.length = range →
      index < range →
      (∀ entry ∈ table, inUse entry = true → entry.physicalPage ≠ noPhysicalPage) →
      ∃ count after slot next,
        secondChanceEntries table index range = .ok (after, slot, next) ∧
        Chosen (fun position => table[position]?) range index count slot ∧
        next = (slot + 1) % range ∧ next < range ∧
        ∀ position, after[position]? = if PassedOver some range index count position then
          table[position]?.map clearUse else table[position]?) ∧
    ∀ (refs : List PageRef) (table : InvertedTable) (index range : Nat), refs.length = range →
      refs.Nodup → index < range →
      (∀ ref ∈ refs, ∃ entry, table.entry ref = some entry ∧
        (inUse entry = true → entry.physicalPage ≠ noPhysicalPage)) →
      ∃ count after slot,
        secondChancePointers refs table index range = .ok (after, slot, slot) ∧
        Chosen (fun position => refs[position]?.bind table.entry) range index count slot ∧
        slot < range ∧ after.getKeys = table.getKeys ∧
        (∀ thread, after.home thread = table.home thread) ∧
        ∀ ref, after.entry ref =
          if PassedOver (fun position => refs[position]?) range index count ref then
            (table.entry ref).map clearUse
          else table.entry ref :=
  ⟨fun _ _ _ length inside framed => secondChanceEntries_chosen length inside framed,
    fun _ _ _ _ length distinct inside framed =>
      secondChancePointers_chosen length distinct inside framed⟩

/-- A page that was used, and one that was not. -/
def twoEntries : List TranslationEntry :=
  [⟨0, 0, true, false, true, false⟩, ⟨1, 1, true, false, false, false⟩]

/-- Thread 1 with these two pages. -/
def twoPages : InvertedTable :=
  Map.empty.insert 1 ⟨twoEntries, 0,
    ⟨⟨true, ⟨0#32, 0#32, 0#32⟩, ⟨0#32, 0#32, 0#32⟩, ⟨0#32, 0#32, 0#32⟩⟩, [], by decide⟩⟩

/-- Both searches over the two pages end. -/
theorem secondChance_takes_first_two :
    (∃ count after slot next, secondChanceEntries twoEntries 0 2 = .ok (after, slot, next) ∧
      Chosen (fun position => twoEntries[position]?) 2 0 count slot) ∧
    ∃ count after slot,
      secondChancePointers [⟨1, 0⟩, ⟨1, 1⟩] twoPages 0 2 = .ok (after, slot, slot) ∧
      Chosen (fun position => [PageRef.mk 1 0, ⟨1, 1⟩][position]?.bind twoPages.entry) 2 0 count
        slot := by
  constructor
  · obtain ⟨count, after, slot, next, found, chosen, -⟩ :=
      secondChance_takes_first.1 twoEntries 0 2 rfl (by decide) (by decide)
    exact ⟨count, after, slot, next, found, chosen⟩
  · obtain ⟨count, after, slot, found, chosen, -⟩ :=
      secondChance_takes_first.2 [⟨1, 0⟩, ⟨1, 1⟩] twoPages 0 2 rfl (by decide) (by decide) (by
        intro ref member
        simp only [List.mem_cons, List.not_mem_nil, or_false] at member
        rcases member with rfl | rfl
        · exact ⟨_, rfl, by decide⟩
        · exact ⟨_, rfl, by decide⟩)
    exact ⟨count, after, slot, found, chosen⟩

end Nachos.Vm
