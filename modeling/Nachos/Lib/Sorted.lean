import Mathlib.Data.List.Perm.Basic
import Mathlib.Order.Lattice

/-! Lists of items with keys that are kept in the order of the keys. -/

namespace Sorted

universe u v

variable {α : Type u} {κ : Type v} [LinearOrder κ]

/-- Put an item behind all items whose keys are not larger. -/
def sortedInsert (item : α) (sortKey : κ) : List (α × κ) → List (α × κ)
  | [] => [(item, sortKey)]
  | first :: rest =>
    if sortKey < first.2 then (item, sortKey) :: first :: rest
    else first :: sortedInsert item sortKey rest

/-- The keys never decrease. -/
def InOrder (queue : List (α × κ)) : Prop := queue.Pairwise fun first second => first.2 ≤ second.2

/-- Inserting adds one item. -/
theorem sortedInsert_perm (item : α) (sortKey : κ) (queue : List (α × κ)) :
    (sortedInsert item sortKey queue).Perm ((item, sortKey) :: queue) := by
  induction queue with
  | nil => exact .refl _
  | cons first rest ih =>
    rw [sortedInsert]
    split
    · exact .refl _
    · exact (ih.cons first).trans (.swap _ _ _)

/-- The members after an insertion. -/
theorem mem_sortedInsert {item : α} {sortKey : κ} {queue : List (α × κ)} {other : α × κ} :
    other ∈ sortedInsert item sortKey queue ↔ other = (item, sortKey) ∨ other ∈ queue := by
  rw [(sortedInsert_perm item sortKey queue).mem_iff, List.mem_cons]

/-- An item with a key below the first one is put in front of all. -/
theorem sortedInsert_of_lt {item : α} {sortKey : κ} {first : α × κ} {rest : List (α × κ)}
    (smaller : sortKey < first.2) :
    sortedInsert item sortKey (first :: rest) = (item, sortKey) :: first :: rest :=
  if_pos smaller

/-- An item with a key that is not below the first one is put somewhere behind it. -/
theorem sortedInsert_of_le {item : α} {sortKey : κ} {first : α × κ} {rest : List (α × κ)}
    (larger : first.2 ≤ sortKey) :
    sortedInsert item sortKey (first :: rest) = first :: sortedInsert item sortKey rest :=
  if_neg (not_lt.mpr larger)

/-- An item goes behind all items in front whose keys are not larger. -/
theorem sortedInsert_append {item : α} {sortKey : κ} {front back : List (α × κ)}
    (smaller : ∀ other ∈ front, other.2 ≤ sortKey) :
    sortedInsert item sortKey (front ++ back) = front ++ sortedInsert item sortKey back := by
  induction front with
  | nil => rfl
  | cons first rest ih =>
    rw [List.cons_append, sortedInsert_of_le (smaller first List.mem_cons_self), List.cons_append,
      ih fun other member => smaller other (List.mem_cons_of_mem _ member)]

/-- Inserting keeps a relation between earlier and later items that the new item meets too. -/
theorem InOrder.pairwise_sortedInsert {queue : List (α × κ)} (ordered : InOrder queue) {item : α}
    {sortKey : κ} {related : α × κ → α × κ → Prop} (pairs : queue.Pairwise related)
    (behind : ∀ other ∈ queue, other.2 ≤ sortKey → related other (item, sortKey))
    (before : ∀ other ∈ queue, sortKey < other.2 → related (item, sortKey) other) :
    (Sorted.sortedInsert item sortKey queue).Pairwise related := by
  induction queue with
  | nil => exact List.pairwise_singleton _ _
  | cons first rest ih =>
    obtain ⟨least, later⟩ := List.pairwise_cons.mp ordered
    obtain ⟨ahead, pairs'⟩ := List.pairwise_cons.mp pairs
    rcases lt_or_ge sortKey first.2 with smaller | larger
    · -- All keys of the queue are larger than the new one.
      rw [sortedInsert_of_lt smaller]
      refine List.pairwise_cons.mpr ⟨fun other member => before other member ?_, pairs⟩
      rcases List.mem_cons.mp member with rfl | member
      · exact smaller
      · exact smaller.trans_le (least other member)
    · -- The first item stays, and the new one comes somewhere behind it.
      rw [sortedInsert_of_le larger]
      refine List.pairwise_cons.mpr ⟨?_, ih later pairs'
        (fun other member => behind other (List.mem_cons_of_mem _ member))
        (fun other member => before other (List.mem_cons_of_mem _ member))⟩
      intro other member
      rcases mem_sortedInsert.mp member with rfl | member
      · exact behind first List.mem_cons_self larger
      · exact ahead other member

/-- Inserting keeps the order. -/
theorem InOrder.sortedInsert {queue : List (α × κ)} (ordered : InOrder queue) (item : α)
    (sortKey : κ) : InOrder (sortedInsert item sortKey queue) :=
  ordered.pairwise_sortedInsert ordered (fun _ _ larger => larger) fun _ _ smaller => smaller.le

end Sorted
