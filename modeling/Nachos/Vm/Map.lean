import Nachos.Machine.Translate
import Mathlib.Data.List.Nodup

/-! `Map`: a growing array of key and object pairs, searched from its front. -/

namespace Nachos

/-- The pairs in insertion order; the arrays are never filled beyond their capacity. -/
structure Map (κ ο : Type) where
  entries : List (κ × ο)
  capacity : Nat
  fits : entries.length ≤ capacity
  positive : 0 < capacity

namespace Map

variable {κ ο : Type}

theorem fits_nil : ([] : List (κ × ο)).length ≤ 300 := Nat.zero_le _

theorem capacity_pos : 0 < 300 := by decide

/-- `Map::Map`, with the initial capacity of the class. -/
def empty : Map κ ο := ⟨[], 300, fits_nil, capacity_pos⟩

/-- `Map::insert`, which doubles a full array before it appends. -/
def insert (map : Map κ ο) (key : κ) (object : ο) : Map κ ο where
  entries := map.entries ++ [(key, object)]
  capacity := if map.entries.length ≥ map.capacity then map.capacity * 2 else map.capacity
  fits := by
    have fits := map.fits
    have positive := map.positive
    rw [List.length_append, List.length_singleton]
    split <;> omega
  positive := by
    have positive := map.positive
    split <;> omega

/-- `Map::getCount`. -/
def getCount (map : Map κ ο) : Nat := map.entries.length

/-- `Map::getKeys`. -/
def getKeys (map : Map κ ο) : List κ := map.entries.map Prod.fst

/-- Change every object in place, as code does that follows the stored pointers. -/
def mapObjects (map : Map κ ο) (change : κ → ο → ο) : Map κ ο where
  entries := map.entries.map fun pair => (pair.1, change pair.1 pair.2)
  capacity := map.capacity
  fits := by rw [List.length_map]; exact map.fits
  positive := map.positive

/-- Changing objects in place keeps every key where it is. -/
@[simp] theorem getKeys_mapObjects (map : Map κ ο) (change : κ → ο → ο) :
    (map.mapObjects change).getKeys = map.getKeys := by
  simp [getKeys, mapObjects]

/-- Inserting lists the key at the end. -/
@[simp] theorem getKeys_insert (map : Map κ ο) (key : κ) (object : ο) :
    (map.insert key object).getKeys = map.getKeys ++ [key] := by
  simp [getKeys, insert]

variable [DecidableEq κ]

/-- `Map::operator[]`: the first pair with the key. For an absent key the source leaves the array. -/
def get? (map : Map κ ο) (key : κ) : Option ο :=
  (map.entries.find? fun pair => pair.1 == key).map Prod.snd

/-- `Map::remove` of a key that is present: the first pair with it is closed over. -/
def erase (map : Map κ ο) (key : κ) : Map κ ο where
  entries := map.entries.eraseP fun pair => pair.1 == key
  capacity := map.capacity
  fits := Nat.le_trans (List.length_eraseP_le) map.fits
  positive := map.positive

/-- `Map::remove`, whose search for an absent key never ends inside the array. -/
def remove (map : Map κ ο) (key : κ) : Except Fault (Map κ ο) :=
  match map.get? key with
  | none => .error .diverges
  | some _ => .ok (map.erase key)

/-- Every object stored under a key, oldest first. -/
def copies (map : Map κ ο) (key : κ) : List ο :=
  (map.entries.filter fun pair => pair.1 == key).map Prod.snd

/-- Change the object of one key in place. -/
def update (map : Map κ ο) (key : κ) (change : ο → ο) : Map κ ο :=
  map.mapObjects fun other object => if other = key then change object else object

/-- The lookup answers with the oldest copy. -/
theorem get?_eq_head (map : Map κ ο) (key : κ) : map.get? key = (map.copies key).head? := by
  simp [get?, copies, List.head?_filter]

/-- A fresh map holds nothing. -/
@[simp] theorem copies_empty (key : κ) : (empty : Map κ ο).copies key = [] := rfl

/-- A fresh map answers no lookup. -/
@[simp] theorem get?_empty (key : κ) : (empty : Map κ ο).get? key = none := rfl

/-- Inserting appends one copy to its own key. -/
theorem copies_insert (map : Map κ ο) (key other : κ) (object : ο) :
    (map.insert key object).copies other =
      map.copies other ++ if key = other then [object] else [] := by
  by_cases same : key = other
  · simp [copies, insert, List.filter_append, same]
  · simp [copies, insert, List.filter_append, same]

/-- A lookup finds the old object first, and a new one only under a new key. -/
theorem get?_insert (map : Map κ ο) (key other : κ) (object : ο) :
    (map.insert key object).get? other =
      (map.get? other).or (if key = other then some object else none) := by
  simp only [get?_eq_head, copies_insert, List.head?_append]
  by_cases same : key = other <;> simp [same]

/-- Removing drops the oldest copy of the key and nothing else. -/
theorem copies_erase (map : Map κ ο) (key other : κ) :
    (map.erase key).copies other =
      if key = other then (map.copies other).tail else map.copies other := by
  -- The walk stops at the first pair with the key, which is the head of its copies.
  suffices general : ∀ pairs : List (κ × ο),
      ((pairs.eraseP fun pair => pair.1 == key).filter fun pair => pair.1 == other) =
        if key = other then (pairs.filter fun pair => pair.1 == other).tail
        else pairs.filter fun pair => pair.1 == other by
    simp only [copies, erase, general]
    split <;> simp [List.map_tail]
  intro pairs
  induction pairs with
  | nil => simp
  | cons pair rest ih =>
    by_cases here : pair.1 = key
    · subst here
      by_cases same : pair.1 = other
      · simp [same]
      · simp [same]
    · by_cases same : pair.1 = other
      · have differ : key ≠ other := fun equal => here (same.trans equal.symm)
        rw [if_neg differ] at ih ⊢
        rw [List.eraseP_cons_of_neg (by simpa using here), List.filter_cons_of_pos (by simpa using same),
          List.filter_cons_of_pos (by simpa using same), ih]
      · simp only [beq_iff_eq, here, not_false_eq_true, List.eraseP_cons_of_neg, same,
          List.filter_cons_of_neg]
        exact ih

/-- A lookup after an in-place change sees the changed object. -/
theorem get?_mapObjects (map : Map κ ο) (change : κ → ο → ο) (key : κ) :
    (map.mapObjects change).get? key = (map.get? key).map (change key) := by
  simp only [get?, mapObjects, List.find?_map, Option.map_map]
  cases located : map.entries.find? ((fun pair => pair.1 == key) ∘
      fun pair => (pair.1, change pair.1 pair.2)) with
  | none =>
    have same : (map.entries.find? fun pair => pair.1 == key) = none := located
    simp [same]
  | some pair =>
    have same : (map.entries.find? fun pair => pair.1 == key) = some pair := located
    have named : pair.1 = key := by simpa using List.find?_some same
    simp [same, named]

/-- Updating one key changes only what that key answers. -/
theorem get?_update (map : Map κ ο) (key other : κ) (change : ο → ο) :
    (map.update key change).get? other =
      if other = key then (map.get? other).map change else map.get? other := by
  rw [update, get?_mapObjects]
  by_cases same : other = key
  · simp [same]
  · simp [same]

/-- A key answers a lookup exactly when it is listed. -/
theorem mem_getKeys (map : Map κ ο) (key : κ) :
    key ∈ map.getKeys ↔ ∃ object, map.get? key = some object := by
  constructor
  · intro member
    cases found : map.get? key with
    | some object => exact ⟨object, rfl⟩
    | none =>
      simp only [get?, Option.map_eq_none_iff, List.find?_eq_none, beq_iff_eq] at found
      obtain ⟨pair, listed, named⟩ := List.mem_map.mp member
      exact absurd named (found pair listed)
  · rintro ⟨object, found⟩
    simp only [get?, Option.map_eq_some_iff] at found
    obtain ⟨pair, located, -⟩ := found
    have named : pair.1 = key := by simpa using List.find?_some located
    exact List.mem_map.mpr ⟨pair, List.mem_of_find?_eq_some located, named⟩

/-- Removing takes one occurrence of the key off the list. -/
@[simp] theorem getKeys_erase (map : Map κ ο) (key : κ) :
    (map.erase key).getKeys = map.getKeys.erase key := by
  simp only [getKeys, erase, List.erase_eq_eraseP', List.eraseP_map]
  rfl

/-- Removing a key that is listed once makes it unanswered and leaves the rest. -/
theorem get?_erase (map : Map κ ο) (distinct : map.getKeys.Nodup) (key other : κ) :
    (map.erase key).get? other = if other = key then none else map.get? other := by
  -- With distinct keys there is at most one copy, so its tail is empty.
  have single : (map.copies key).length ≤ 1 := by
    have count : map.getKeys.count key ≤ 1 := List.nodup_iff_count_le_one.mp distinct key
    have size : (map.copies key).length = map.getKeys.count key := by
      rw [copies, getKeys, List.length_map, List.count, List.countP_map,
        List.countP_eq_length_filter]
      rfl
    omega
  rw [get?_eq_head, get?_eq_head, copies_erase]
  by_cases same : key = other
  · subst same
    cases copies : map.copies key with
    | nil => simp
    | cons first rest =>
      rw [copies] at single
      have empty : rest = [] := List.length_eq_zero_iff.mp (by simpa using single)
      simp [empty]
  · simp [same, Ne.symm same]

end Map

end Nachos
