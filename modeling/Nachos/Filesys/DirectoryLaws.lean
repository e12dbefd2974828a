import Nachos.Filesys.Directory

/-! Names of files are compared as far as the directory keeps them. -/

namespace Nachos.Filesys

/-- Strings agree up to a limit when their first characters do, and then the rest unless it ended. -/
theorem strncmp_succ_eq_zero {limit : Nat} {first second : List Byte} :
    strncmp (limit + 1) first second = 0 ↔ first.headD 0 = second.headD 0 ∧
      (first.headD 0 = 0 ∨ strncmp limit first.tail second.tail = 0) := by
  rw [strncmp]
  split
  · -- The difference of two characters is zero only when they are equal.
    rename_i differ
    have apart : (first.headD 0).toNat ≠ (second.headD 0).toNat :=
      fun same => differ (BitVec.eq_of_toNat_eq same)
    constructor
    · intro zero
      omega
    · rintro ⟨same, -⟩
      exact absurd same differ
  · rename_i same
    rw [Classical.not_not] at same
    split
    · rename_i ended
      exact ⟨fun _ => ⟨same, .inl ended⟩, fun _ => rfl⟩
    · rename_i goes
      exact ⟨fun rest => ⟨same, .inr rest⟩, fun agree => agree.2.resolve_left goes⟩

/-- Agreement does not depend on which string comes first. -/
theorem strncmp_comm {limit : Nat} {first second : List Byte}
    (agree : strncmp limit first second = 0) : strncmp limit second first = 0 := by
  induction limit generalizing first second with
  | zero => rfl
  | succ limit ih =>
    -- Both strings end at the same place, or go on after equal characters.
    obtain ⟨heads, rest⟩ := strncmp_succ_eq_zero.mp agree
    refine strncmp_succ_eq_zero.mpr ⟨heads.symm, ?_⟩
    exact rest.imp (fun ended => heads ▸ ended) ih

/-- A name agrees with what was stored of a string exactly when it agrees with the string. -/
theorem strncmp_strncpy {limit : Nat} {chars into source : List Byte} :
    strncmp limit chars (strncpy limit into source) = 0 ↔ strncmp limit chars source = 0 := by
  rw [strncpy]
  generalize into.drop limit = rest
  induction limit generalizing chars source with
  | zero => simp [strncmp]
  | succ limit ih =>
    rw [strncmp_succ_eq_zero, strncmp_succ_eq_zero, copied]
    split
    · -- Behind the end of the string only terminators are stored.
      rename_i ended
      simp only [ended, List.replicate_succ, List.cons_append, List.headD_cons]
      exact and_congr_right fun zero => by simp only [zero, true_or]
    · -- A character that does not end the string is stored as it is.
      simp only [List.cons_append, List.headD_cons, List.tail_cons, ih]

/-- Entries in use have names that differ as far as they are kept. -/
def Directory.NamesDiffer (directory : Directory) : Prop :=
  ∀ (index other : Nat) entry entry', directory.table[index]? = some entry →
    directory.table[other]? = some entry' → entry.inUse = true → entry'.inUse = true →
    strncmp fileNameMaxLen entry.name.1 entry'.name.1 = 0 → index = other

variable {directory after : Directory} {name : List Byte}

/-- A name is found in the first entry that is in use for it. -/
theorem Directory.findIndex_eq_some {index : Nat} (found : directory.findIndex name = some index) :
    ∃ entry, directory.table[index]? = some entry ∧ entry.inUse = true ∧
      strncmp fileNameMaxLen entry.name.1 name = 0 := by
  obtain ⟨inside, holds, -⟩ := List.findIdx?_eq_some_iff_getElem.mp found
  rw [DirectoryEntry.isFor, Bool.and_eq_true, beq_iff_eq] at holds
  exact ⟨_, List.getElem?_eq_getElem inside, holds⟩

/-- A name is not found when no entry is in use for it. -/
theorem Directory.findIndex_eq_none (missing : directory.findIndex name = none) {index : Nat}
    {entry : DirectoryEntry} (located : directory.table[index]? = some entry)
    (used : entry.inUse = true) : strncmp fileNameMaxLen entry.name.1 name ≠ 0 := by
  have other := List.findIdx?_eq_none_iff.mp missing entry (List.mem_of_getElem? located)
  simpa [DirectoryEntry.isFor, used] using other

/-- `Find` answers with the sector of the entry it finds. -/
theorem Directory.find_eq {index : Nat} {entry : DirectoryEntry}
    (found : directory.findIndex name = some index) (located : directory.table[index]? = some entry) :
    directory.find name = entry.sector.toInt := by
  simp [Directory.find, found, located]

/-- The entry at an index after an assignment. -/
theorem Directory.getElem?_modify (directory : Directory) (index other : Nat)
    (change : DirectoryEntry → DirectoryEntry) :
    (directory.modify index change).table[other]? =
      if index = other then (directory.table[other]?).map change else directory.table[other]? := by
  rw [Directory.modify, List.getElem?_modify]
  split <;> cases directory.table[other]? <;> rfl

/-- `Add` fills the first free entry, unless the name is known. -/
theorem Directory.add_eq_some {sector : BitVec 32} (added : directory.add name sector = some after) :
    directory.findIndex name = none ∧ ∃ (index : Nat) (entry : DirectoryEntry),
      directory.table[index]? = some entry ∧ entry.inUse = false ∧
      after = directory.modify index (·.occupy name sector) := by
  unfold Directory.add at added
  split at added
  · simp at added
  · rename_i missing
    obtain ⟨index, free, rfl⟩ := Option.map_eq_some_iff.mp added
    obtain ⟨inside, unused, -⟩ := List.findIdx?_eq_some_iff_getElem.mp free
    exact ⟨missing, index, _, List.getElem?_eq_getElem inside, by simpa using unused, rfl⟩

/-- A new file has a name that no other file has. -/
theorem Directory.NamesDiffer.add {sector : BitVec 32} (differ : directory.NamesDiffer)
    (added : directory.add name sector = some after) : after.NamesDiffer := by
  obtain ⟨missing, place, free, located, unused, rfl⟩ := Directory.add_eq_some added
  intro index other entry entry' found found' used used' agree
  rw [Directory.getElem?_modify] at found found'
  split at found <;> split at found'
  · -- Both are the entry of the new file.
    omega
  · -- The new name would agree with an older one.
    rename_i here there
    subst here
    rw [located, Option.map_some, Option.some.injEq] at found
    subst found
    exact absurd (strncmp_strncpy.mp (strncmp_comm agree))
      (Directory.findIndex_eq_none missing found' used')
  · rename_i there here
    subst here
    rw [located, Option.map_some, Option.some.injEq] at found'
    subst found'
    exact absurd (strncmp_strncpy.mp agree) (Directory.findIndex_eq_none missing found used)
  · exact differ index other entry entry' found found' used used' agree

/-- Removing a file keeps the other names apart. -/
theorem Directory.NamesDiffer.clear (differ : directory.NamesDiffer) (place : Nat) :
    (directory.modify place fun entry => { entry with inUse := false }).NamesDiffer := by
  -- An entry still in use was in use, with the same name.
  have kept : ∀ (index : Nat) entry, (directory.modify place fun entry =>
      { entry with inUse := false }).table[index]? = some entry → entry.inUse = true →
      directory.table[index]? = some entry := by
    intro index entry found used
    rw [Directory.getElem?_modify] at found
    split at found
    · -- The removed entry is no longer in use.
      obtain ⟨old, -, rfl⟩ := Option.map_eq_some_iff.mp found
      simp at used
    · exact found
  intro index other entry entry' found found' used used' agree
  exact differ index other entry entry' (kept index entry found used)
    (kept other entry' found' used') used used' agree

end Nachos.Filesys
