import Mathlib.Data.Finmap

/-! Cells in a heap that hold the address of the next one, and the chains that they form. -/

namespace Chains

universe u

variable {α : Type u}

/-- A cell: what it holds, and the address of the next cell, or zero. -/
structure Cell (α : Type u) where
  value : α
  next : Nat
  deriving DecidableEq

/-- The cells that were allocated and not yet freed, at their addresses. -/
abbrev Heap (α : Type u) := Finmap fun _ : Nat => Cell α

/-- The nodes that are visited from an address on, until another one is reached. -/
def Chain (heap : Heap α) : Nat → List (Nat × α) → Nat → Prop
  | start, [], stop => start = stop
  | start, node :: rest, stop => start = node.1 ∧ node.1 ≠ 0 ∧
      ∃ next, heap.lookup node.1 = some ⟨node.2, next⟩ ∧ Chain heap next rest stop

/-- The addresses of nodes. -/
def addresses (nodes : List (Nat × α)) : List Nat := nodes.map Prod.fst

/-- What the nodes hold. -/
def values (nodes : List (Nat × α)) : List α := nodes.map Prod.snd

/-- What a change of a heap does: some cells are replaced by others, the rest is left alone. -/
structure Replaces (heap after : Heap α) (old new : List Nat) : Prop where
  frame : ∀ address, address ∉ old → address ∉ new → after.lookup address = heap.lookup address
  freed : ∀ address ∈ old, address ∉ new → after.lookup address = none

variable {heap after : Heap α} {start stop middle address : Nat} {front back nodes : List (Nat × α)}
  {node : Nat × α}

/-- The addresses of nodes that follow each other. -/
@[simp] theorem addresses_append (front back : List (Nat × α)) :
    addresses (front ++ back) = addresses front ++ addresses back := List.map_append

/-- The address of a node comes before those of the others. -/
@[simp] theorem addresses_cons (node : Nat × α) (rest : List (Nat × α)) :
    addresses (node :: rest) = node.1 :: addresses rest := rfl

/-- No nodes have no addresses. -/
@[simp] theorem addresses_nil : addresses ([] : List (Nat × α)) = [] := rfl

/-- What nodes hold that follow each other. -/
@[simp] theorem values_append (front back : List (Nat × α)) :
    values (front ++ back) = values front ++ values back := List.map_append

/-- What a node holds comes before what the others hold. -/
@[simp] theorem values_cons (node : Nat × α) (rest : List (Nat × α)) :
    values (node :: rest) = node.2 :: values rest := rfl

/-- No nodes hold nothing. -/
@[simp] theorem values_nil : values ([] : List (Nat × α)) = [] := rfl

/-- A chain falls into two where its nodes do. -/
theorem chain_append : Chain heap start (front ++ back) stop ↔
    ∃ middle, Chain heap start front middle ∧ Chain heap middle back stop := by
  induction front generalizing start with
  | nil => simp [Chain]
  | cons node rest ih =>
    simp only [List.cons_append, Chain, ih]
    constructor
    · rintro ⟨here, real, next, found, middle, first, second⟩
      exact ⟨middle, ⟨here, real, next, found, first⟩, second⟩
    · rintro ⟨middle, ⟨here, real, next, found, first⟩, second⟩
      exact ⟨here, real, next, found, middle, first, second⟩

/-- A chain up to and with a node. -/
theorem chain_concat : Chain heap start (front ++ [node]) stop ↔
    Chain heap start front node.1 ∧ node.1 ≠ 0 ∧ heap.lookup node.1 = some ⟨node.2, stop⟩ := by
  rw [chain_append]
  constructor
  · rintro ⟨middle, chain, rfl, real, next, found, rfl⟩
    exact ⟨chain, real, found⟩
  · rintro ⟨chain, real, found⟩
    exact ⟨node.1, chain, rfl, real, stop, found, rfl⟩

/-- A chain depends on its own cells only. -/
theorem Chain.congr (chain : Chain heap start nodes stop)
    (same : ∀ address ∈ addresses nodes, after.lookup address = heap.lookup address) :
    Chain after start nodes stop := by
  induction nodes generalizing start with
  | nil => exact chain
  | cons node rest ih =>
    obtain ⟨here, real, next, found, later⟩ := chain
    refine ⟨here, real, next, (same _ List.mem_cons_self).trans found, ?_⟩
    exact ih later fun address member => same address (List.mem_cons_of_mem _ member)

/-- The cells of a chain were allocated. -/
theorem Chain.live (chain : Chain heap start nodes stop) :
    ∀ address ∈ addresses nodes, address ∈ heap := by
  induction nodes generalizing start with
  | nil => simp
  | cons node rest ih =>
    obtain ⟨-, -, next, found, later⟩ := chain
    intro address member
    rcases List.mem_cons.mp member with rfl | member
    · exact Finmap.mem_of_lookup_eq_some found
    · exact ih later address member

/-- A chain that is not empty starts at its first node. -/
theorem Chain.start_eq (chain : Chain heap start (node :: nodes) stop) : start = node.1 := chain.1

/-- A chain that ends in zero is empty exactly if it starts there. -/
theorem Chain.start_eq_zero (chain : Chain heap start nodes 0) : start = 0 ↔ nodes = [] := by
  cases nodes with
  | nil => exact iff_of_true chain rfl
  | cons node rest => exact iff_of_false (chain.1 ▸ chain.2.1) (List.cons_ne_nil _ _)

/-- A heap has at least as many cells as a chain without repetition. -/
theorem Chain.length_le (chain : Chain heap start nodes stop) (distinct : (addresses nodes).Nodup) :
    nodes.length ≤ heap.keys.card := by
  have subset : (addresses nodes).toFinset ⊆ heap.keys := by
    intro address member
    exact Finmap.mem_keys.mpr (chain.live address (List.mem_toFinset.mp member))
  have card := Finset.card_le_card subset
  rwa [List.toFinset_card_of_nodup distinct, addresses, List.length_map] at card

/-- What is replaced again was replaced once. -/
theorem Replaces.trans {old between new : List Nat} {middle : Heap α}
    (first : Replaces heap middle old between) (second : Replaces middle after between new)
    (less : ∀ address ∈ between, address ∈ old) : Replaces heap after old new := by
  refine ⟨fun address outside outside' => ?_, fun address member outside => ?_⟩
  · have passed : address ∉ between := fun member => outside (less address member)
    rw [second.frame address passed outside', first.frame address outside passed]
  · by_cases among : address ∈ between
    · exact second.freed address among outside
    · rw [second.frame address among outside, first.freed address member among]

section Change

variable {next : Nat} {value : α}

/-- A new cell in front of a chain. -/
theorem Chain.insertFirst (chain : Chain heap start nodes stop) (real : address ≠ 0)
    (fresh : address ∉ heap) (value : α) :
    Chain (heap.insert address ⟨value, start⟩) address ((address, value) :: nodes) stop ∧
      Replaces heap (heap.insert address ⟨value, start⟩) (addresses nodes)
        (address :: addresses nodes) := by
  refine ⟨⟨rfl, real, start, Finmap.lookup_insert _, chain.congr fun other member => ?_⟩, ?_, ?_⟩
  · -- The cells of the chain are others than the new one.
    apply Finmap.lookup_insert_of_ne
    rintro rfl
    exact fresh (chain.live _ member)
  · intro other _ outside
    exact Finmap.lookup_insert_of_ne _ fun same => outside (same ▸ List.mem_cons_self)
  · exact fun other member outside => absurd (List.mem_cons_of_mem _ member) outside

/-- A new cell behind one of a chain. -/
theorem Chain.insertAfter (chain : Chain heap start (front ++ node :: back) stop)
    (distinct : (addresses (front ++ node :: back)).Nodup) (real : address ≠ 0)
    (fresh : address ∉ heap) (found : heap.lookup node.1 = some ⟨node.2, next⟩) (value : α) :
    Chain ((heap.insert address ⟨value, next⟩).insert node.1 ⟨node.2, address⟩) start
        (front ++ node :: (address, value) :: back) stop ∧
      Replaces heap ((heap.insert address ⟨value, next⟩).insert node.1 ⟨node.2, address⟩)
        (addresses (front ++ node :: back)) (addresses (front ++ node :: (address, value) :: back)) := by
  obtain ⟨middle, before, here, real', next', found', behind⟩ := chain_append.mp chain
  rw [found, Option.some.injEq, Cell.mk.injEq] at found'
  obtain ⟨-, rfl⟩ := found'
  have live := chain.live
  simp only [addresses_append, addresses_cons] at distinct live
  obtain ⟨-, own, apart⟩ := List.nodup_append.mp distinct
  have differ : address ≠ node.1 := by
    rintro rfl
    exact fresh (Finmap.mem_of_lookup_eq_some found)
  -- A cell apart from the two is what it was.
  have kept : ∀ other, other ≠ address → other ≠ node.1 →
      ((heap.insert address ⟨value, next⟩).insert node.1 ⟨node.2, address⟩).lookup other =
        heap.lookup other := by
    intro other first second
    rw [Finmap.lookup_insert_of_ne _ second, Finmap.lookup_insert_of_ne _ first]
  have others : ∀ other ∈ addresses front ++ addresses back, other ≠ address ∧ other ≠ node.1 := by
    intro other member
    refine ⟨fun same => fresh (same ▸ live other ?_), fun same => ?_⟩
    · exact List.mem_append.mpr ((List.mem_append.mp member).imp_right (List.mem_cons_of_mem _))
    · rcases List.mem_append.mp member with member | member
      · exact apart other member node.1 List.mem_cons_self same
      · exact (List.nodup_cons.mp own).1 (same ▸ member)
  refine ⟨chain_append.mpr ⟨middle, before.congr fun other member => ?_, here, real', address,
    Finmap.lookup_insert _, rfl, real, next, ?_, behind.congr fun other member => ?_⟩, ?_, ?_⟩
  · have apart' := others other (List.mem_append_left _ member)
    exact kept other apart'.1 apart'.2
  · rw [Finmap.lookup_insert_of_ne _ differ, Finmap.lookup_insert]
  · have apart' := others other (List.mem_append_right _ member)
    exact kept other apart'.1 apart'.2
  · intro other _ outside
    simp only [addresses_append, addresses_cons, List.mem_append, List.mem_cons, not_or] at outside
    exact kept other outside.2.2.1 outside.2.1
  · intro other member outside
    simp only [addresses_append, addresses_cons, List.mem_append, List.mem_cons, not_or] at member outside
    exact absurd member (by simp [outside])

/-- The first cell of a chain is freed. -/
theorem Chain.removeFirst (chain : Chain heap start (node :: nodes) stop)
    (distinct : (addresses (node :: nodes)).Nodup)
    (found : heap.lookup node.1 = some ⟨node.2, next⟩) :
    Chain (heap.erase node.1) next nodes stop ∧
      Replaces heap (heap.erase node.1) (addresses (node :: nodes)) (addresses nodes) := by
  obtain ⟨-, -, next', found', behind⟩ := chain
  rw [found, Option.some.injEq, Cell.mk.injEq] at found'
  obtain ⟨-, rfl⟩ := found'
  refine ⟨behind.congr fun other member => ?_, fun other outside _ => ?_, fun other member outside => ?_⟩
  · apply Finmap.lookup_erase_ne
    rintro rfl
    exact (List.nodup_cons.mp distinct).1 member
  · exact Finmap.lookup_erase_ne fun same => outside (same ▸ List.mem_cons_self)
  · -- Only the first cell is no longer among the nodes.
    rcases List.mem_cons.mp member with rfl | member
    · exact Finmap.lookup_erase _ _
    · exact absurd member outside

end Change

end Chains
