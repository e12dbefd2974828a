import Mathlib.Algebra.BigOperators.Group.Multiset.Defs
import Mathlib.Algebra.Group.Nat.Defs
import Mathlib.Data.Multiset.Filter
import Mathlib.Logic.Function.Basic

/-! A store of files that keep their length, read and written through handles with a position. -/

namespace Files

universe u v

variable {ν : Type u} {β : Type v}

/-- A file after new cells were written over it from a position on, as far as it reaches. -/
def splice (old : List β) (position : Nat) (new : List β) : List β :=
  old.take position ++ new.take (old.length - position) ++ old.drop (position + new.length)

/-- The part of a file from a position on, as far as it reaches. -/
def slice (contents : List β) (position count : Nat) : List β :=
  (contents.drop position).take count

/-- Writing over a file does not change its length. -/
@[simp] theorem length_splice (old : List β) (position : Nat) (new : List β) :
    (splice old position new).length = old.length := by
  simp only [splice, List.length_append, List.length_take, List.length_drop]
  omega

/-- A cell of a file that was written over is one of the new ones or the old one. -/
theorem getElem?_splice (old : List β) (position : Nat) (new : List β) {place : Nat}
    (inside : place < old.length) :
    (splice old position new)[place]? =
      if position ≤ place ∧ place < position + new.length then new[place - position]?
      else old[place]? := by
  have front : (old.take position).length = min position old.length := List.length_take
  have middle : (new.take (old.length - position)).length =
      min (old.length - position) new.length := List.length_take
  rw [splice, List.append_assoc]
  split
  · -- The cell lies behind the untouched beginning, among the new ones.
    rename_i now
    rw [List.getElem?_append_right (by omega), List.getElem?_append_left (by omega),
      List.getElem?_take_of_lt (by omega), front, Nat.min_eq_left (by omega)]
  · by_cases before : place < position
    · rw [List.getElem?_append_left (by omega), List.getElem?_take_of_lt before]
    · -- Behind the new cells the file goes on as it was.
      rw [List.getElem?_append_right (by omega), List.getElem?_append_right (by omega),
        List.getElem?_drop, front, middle]
      congr 1
      omega

/-- Writing a second run of cells behind the first is writing both at once. -/
theorem splice_splice (old : List β) (position : Nat) (first second : List β) :
    splice (splice old position first) (position + first.length) second =
      splice old position (first ++ second) := by
  apply List.ext_getElem?
  intro place
  by_cases inside : place < old.length
  · rw [getElem?_splice _ _ _ (by rwa [length_splice]), getElem?_splice _ _ _ inside,
      getElem?_splice _ _ _ inside, List.length_append]
    by_cases later : position + first.length ≤ place ∧
        place < position + first.length + second.length
    · -- The cell is one of the second run.
      rw [if_pos later, if_pos (by omega), List.getElem?_append_right (by omega)]
      congr 1
      omega
    · rw [if_neg later]
      by_cases now : position ≤ place ∧ place < position + first.length
      · rw [if_pos now, if_pos (by omega), List.getElem?_append_left (by omega)]
      · rw [if_neg now, if_neg (by omega)]
  · -- Neither of the two reaches behind the end of the file.
    rw [List.getElem?_eq_none (by rw [length_splice, length_splice]; omega),
      List.getElem?_eq_none (by rw [length_splice]; omega)]

/-- Writing as many cells as a file has replaces all of it. -/
theorem splice_all {old new : List β} (length : new.length = old.length) : splice old 0 new = new := by
  simp [splice, ← length]

/-- Writing behind the end of a file changes nothing. -/
theorem splice_of_le {old : List β} {position : Nat} (behind : old.length ≤ position)
    (new : List β) : splice old position new = old := by
  rw [splice, List.take_of_length_le behind, Nat.sub_eq_zero_of_le behind, List.take_zero,
    List.drop_eq_nil_of_le (by omega), List.append_nil, List.append_nil]

/-- The files that a store holds, under names that differ. -/
@[ext] structure Shelf (ν : Type u) (β : Type v) where
  entries : Multiset (ν × List β)
  distinct : (entries.map Prod.fst).Nodup

namespace Shelf

/-- No files at all. -/
def empty : Shelf ν β := ⟨0, by simp⟩

/-- A name has one file at most. -/
theorem unique (shelf : Shelf ν β) {name : ν} {first second : List β}
    (one : (name, first) ∈ shelf.entries) (other : (name, second) ∈ shelf.entries) :
    first = second := by
  have same := Multiset.inj_on_of_nodup_map shelf.distinct _ one _ other rfl
  exact (Prod.mk.inj same).2

variable [DecidableEq ν]

/-- A new file, unless there is one of that name. -/
def add (shelf : Shelf ν β) (name : ν) (contents : List β) : Shelf ν β :=
  if fresh : name ∈ shelf.entries.map Prod.fst then shelf
  else ⟨(name, contents) ::ₘ shelf.entries, by
    rw [Multiset.map_cons]
    exact Multiset.nodup_cons.mpr ⟨fresh, shelf.distinct⟩⟩

/-- The files but one. -/
def drop (shelf : Shelf ν β) (name : ν) : Shelf ν β :=
  ⟨shelf.entries.filter fun file => file.1 ≠ name,
    Multiset.nodup_of_le (Multiset.map_le_map (Multiset.filter_le _ _)) shelf.distinct⟩

/-- What becomes of one file when a file is written over. -/
def rewrite (name : ν) (position : Nat) (new : List β) (file : ν × List β) : ν × List β :=
  if file.1 = name then (file.1, splice file.2 position new) else file

/-- A file keeps its name when a file is written over. -/
@[simp] theorem fst_rewrite (name : ν) (position : Nat) (new : List β) (file : ν × List β) :
    (rewrite name position new file).1 = file.1 := by
  rw [rewrite]
  split <;> rfl

/-- The files after one of them was written over. -/
def overwrite (shelf : Shelf ν β) (name : ν) (position : Nat) (new : List β) : Shelf ν β :=
  ⟨shelf.entries.map (rewrite name position new), by
    rw [Multiset.map_map]
    simpa using shelf.distinct⟩

/-- The entries after one of them was written over. -/
@[simp] theorem entries_overwrite (shelf : Shelf ν β) (name : ν) (position : Nat) (new : List β) :
    (shelf.overwrite name position new).entries = shelf.entries.map (rewrite name position new) := rfl

/-- The entries that are left. -/
@[simp] theorem entries_drop (shelf : Shelf ν β) (name : ν) :
    (shelf.drop name).entries = shelf.entries.filter fun file => file.1 ≠ name := rfl

/-- The entries after a new one. -/
theorem entries_add (shelf : Shelf ν β) {name : ν} (contents : List β)
    (fresh : name ∉ shelf.entries.map Prod.fst) :
    (shelf.add name contents).entries = (name, contents) ::ₘ shelf.entries := by
  rw [add, dif_neg fresh]

/-- A file stays when another one is added. -/
theorem mem_add {shelf : Shelf ν β} {file : ν × List β} (held : file ∈ shelf.entries) (name : ν)
    (contents : List β) : file ∈ (shelf.add name contents).entries := by
  rw [add]
  split
  · exact held
  · exact Multiset.mem_cons_of_mem held

/-- A file that was written over. -/
theorem mem_overwrite {shelf : Shelf ν β} {name : ν} {contents : List β} (position : Nat)
    (new : List β) (held : (name, contents) ∈ shelf.entries) :
    (name, splice contents position new) ∈ (shelf.overwrite name position new).entries := by
  refine Multiset.mem_map.mpr ⟨(name, contents), held, ?_⟩
  rw [rewrite, if_pos rfl]

/-- Writing behind the end of a file leaves all files alone. -/
theorem overwrite_of_le {shelf : Shelf ν β} {name : ν} {contents : List β} {position : Nat}
    (held : (name, contents) ∈ shelf.entries) (behind : contents.length ≤ position) (new : List β) :
    shelf.overwrite name position new = shelf := by
  refine Shelf.ext ((Multiset.map_congr rfl fun file listed => ?_).trans (Multiset.map_id' _))
  rw [rewrite]
  split
  · -- The file of the name ends before the position.
    rename_i same
    rw [← same] at held
    rw [shelf.unique listed held, splice_of_le behind, shelf.unique held listed]
  · rfl

/-- The other files stay what they were. -/
theorem mem_overwrite_of_ne {shelf : Shelf ν β} {name other : ν} {contents : List β}
    (position : Nat) (new : List β) (differ : other ≠ name) :
    (other, contents) ∈ (shelf.overwrite name position new).entries ↔
      (other, contents) ∈ shelf.entries := by
  constructor
  · intro held
    obtain ⟨⟨name', old⟩, before, changed⟩ := Multiset.mem_map.mp held
    rw [rewrite] at changed
    split at changed
    · -- This file has the name that was written to, which is not the other one.
      rename_i same
      exact absurd ((Prod.mk.inj changed).1.symm.trans same) differ
    · exact changed ▸ before
  · intro held
    exact Multiset.mem_map.mpr ⟨(other, contents), held, if_neg differ⟩

/-- The space that the files take, when a file of each length has its cost. -/
def cost (shelf : Shelf ν β) (price : Nat → Nat) : Nat :=
  (shelf.entries.map fun file => price file.2.length).sum

end Shelf

/-- How many files there may be, how much space they have, and what a file of a length takes. -/
structure Limits where
  files : Nat
  space : Nat
  price : Nat → Nat

/-- The files, and for each handle that is open its file and its position. -/
structure Store (ν : Type u) (β : Type v) where
  shelf : Shelf ν β
  handles : Nat → Option (ν × Nat)

/-- A request together with its answer. -/
inductive Event (ν : Type u) (β : Type v) where
  | created (name : ν) (length : Nat) (success : Bool) (contents : List β)
  | removed (name : ν) (success : Bool)
  | opened (handle : Nat) (name : ν) (success : Bool)
  | closed (handle : Nat)
  | sought (handle : Nat) (position : Nat)
  | read (handle : Nat) (count : Nat) (answer : List β)
  | wrote (handle : Nat) (cells : List β) (answer : Int)
  | readAt (handle : Nat) (count position : Nat) (answer : List β)
  | wroteAt (handle : Nat) (cells : List β) (position : Nat) (answer : Int)
  | restarted

namespace Store

/-- A store without files, and without handles. -/
def empty : Store ν β := ⟨.empty, fun _ => none⟩

variable [DecidableEq ν]

/-- The store with another file, or none, behind a handle. -/
def setHandle (store : Store ν β) (handle : Nat) (value : Option (ν × Nat)) : Store ν β :=
  { store with handles := Function.update store.handles handle value }

/-- The file behind a handle is written over. -/
def overwriteAt (store : Store ν β) (handle position : Nat) (cells : List β) : Store ν β :=
  match store.handles handle with
  | none => store
  | some (name, _) => { store with shelf := store.shelf.overwrite name position cells }

/-- The position of a handle is moved. -/
def advance (store : Store ν β) (handle count : Nat) : Store ν β :=
  match store.handles handle with
  | none => store
  | some (name, position) => store.setHandle handle (some (name, position + count))

/-- What a request that was answered does to the store. -/
def apply (store : Store ν β) : Event ν β → Store ν β
  | .created name _ success contents =>
    if success then { store with shelf := store.shelf.add name contents } else store
  | .removed name success => if success then { store with shelf := store.shelf.drop name } else store
  | .opened handle name success => store.setHandle handle (if success then some (name, 0) else none)
  | .closed handle => store.setHandle handle none
  | .sought handle position =>
    match store.handles handle with
    | none => store
    | some (name, _) => store.setHandle handle (some (name, position))
  | .read handle _ answer => store.advance handle answer.length
  | .wrote handle cells answer =>
    match store.handles handle with
    | none => store
    | some (_, position) => (store.overwriteAt handle position cells).advance handle answer.toNat
  | .readAt .. => store
  | .wroteAt handle cells position _ => store.overwriteAt handle position cells
  | .restarted => { store with handles := fun _ => none }

/-- A handle shows a file, at a position. -/
def Shows (store : Store ν β) (handle : Nat) (contents : List β) (position : Nat) : Prop :=
  ∃ name, store.handles handle = some (name, position) ∧ (name, contents) ∈ store.shelf.entries

/-- The answers that a request may get. -/
def allows (limits : Limits) (store : Store ν β) : Event ν β → Prop
  | .created name length success contents =>
    (success = true ↔ name ∉ store.shelf.entries.map Prod.fst ∧
      store.shelf.entries.card < limits.files ∧
      limits.price length + store.shelf.cost limits.price ≤ limits.space) ∧
    (success = true → contents.length = length)
  | .removed name success | .opened _ name success =>
    success = true ↔ name ∈ store.shelf.entries.map Prod.fst
  | .closed _ | .restarted => True
  | .sought handle _ => ∃ contents position, store.Shows handle contents position
  | .read handle count answer => ∃ contents position, store.Shows handle contents position ∧
      answer = slice contents position count
  | .wrote handle cells answer => ∃ contents position, store.Shows handle contents position ∧
      answer = (min cells.length (contents.length - position) : Nat)
  | .readAt handle count start answer => ∃ contents position,
      store.Shows handle contents position ∧ answer = slice contents start count
  | .wroteAt handle cells start answer => ∃ contents position,
      store.Shows handle contents position ∧ answer = (min cells.length (contents.length - start) : Nat)

/-- A request that leaves the file of a name alone. -/
def Spares (store : Store ν β) (name : ν) : Event ν β → Prop
  | .removed other _ => other ≠ name
  | .wrote handle _ _ | .wroteAt handle _ _ _ =>
    ∀ other position, store.handles handle = some (other, position) → other ≠ name
  | _ => True

/-- A file keeps its bytes until they are written over or removed. -/
theorem mem_apply {store : Store ν β} {name : ν} {contents : List β} {event : Event ν β}
    (held : (name, contents) ∈ store.shelf.entries) (spares : store.Spares name event) :
    (name, contents) ∈ (store.apply event).shelf.entries := by
  -- Moving a handle leaves all files alone.
  have advanced : ∀ (store : Store ν β) handle count,
      (store.advance handle count).shelf = store.shelf := by
    intro store handle count
    rw [advance]
    split <;> rfl
  -- Writing through a handle changes its file only.
  have written : ∀ handle position cells, (∀ other position, store.handles handle =
      some (other, position) → other ≠ name) →
      (name, contents) ∈ (store.overwriteAt handle position cells).shelf.entries := by
    intro handle position cells elsewhere
    rw [overwriteAt]
    split
    · exact held
    · rename_i other _ opened
      exact (Shelf.mem_overwrite_of_ne position cells (elsewhere _ _ opened).symm).mpr held
  cases event with
  | created other length success contents' =>
    rw [apply]
    split
    · exact Shelf.mem_add held _ _
    · exact held
  | removed other success =>
    rw [apply]
    split
    · exact Multiset.mem_filter.mpr ⟨held, fun same => spares same.symm⟩
    · exact held
  | opened handle other success => exact held
  | closed handle => exact held
  | sought handle position =>
    rw [apply]
    split <;> exact held
  | read handle count answer => exact (advanced store handle answer.length).symm ▸ held
  | wrote handle cells answer =>
    rw [apply]
    split
    · exact held
    · rw [advanced]
      exact written _ _ _ spares
  | readAt handle count position answer => exact held
  | wroteAt handle cells position answer => exact written _ _ _ spares
  | restarted => exact held

end Store

end Files
