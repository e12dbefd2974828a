import Nachos.Threads.LinkedList

/-! The lists of `list.h` are lists: no call goes astray, and no element is lost or left behind. -/

namespace Nachos.Threads

open Chains

variable {α : Type} {elements after : Elements α} {list : LinkedList}
  {nodes : List (Nat × (α × Int))} {address : Nat} {item : α} {sortKey : Int}

/-- A list has these elements, in this order, and no other list has one of them. -/
structure LinkedList.Owns (elements : Elements α) (list : LinkedList)
    (nodes : List (Nat × (α × Int))) : Prop where
  chain : Chain elements list.first nodes 0
  last : list.last = (nodes.getLast?.map Prod.fst).getD 0
  distinct : (addresses nodes).Nodup

namespace LinkedList

/-- A pointer to an element can be followed. -/
theorem element_eq {cell : Cell (α × Int)} (found : elements.lookup address = some cell) :
    element elements address = .ok cell := by
  rw [element, found]

/-- The `next` of an element can be assigned to. -/
theorem setNext_eq {value : α × Int} {old : Nat} (found : elements.lookup address = some ⟨value, old⟩)
    (next : Nat) : setNext elements address next = .ok (elements.insert address ⟨value, next⟩) := by
  rw [setNext, element_eq found]
  rfl

/-- The `next` of a new element is assigned before anything else happens to it. -/
theorem setNext_newElement (elements : Elements α) (address : Nat) (item : α) (sortKey : Int)
    (next : Nat) : setNext (newElement elements address item sortKey) address next =
      .ok (elements.insert address ⟨(item, sortKey), next⟩) := by
  rw [newElement, setNext_eq (Finmap.lookup_insert _), Finmap.insert_insert]

namespace Owns

/-- A list is empty exactly if it has no elements. -/
theorem isEmpty_iff (owns : Owns elements list nodes) : list.isEmpty = true ↔ nodes = [] := by
  rw [isEmpty, beq_iff_eq, owns.chain.start_eq_zero]

/-- A list that is not empty begins with an element. -/
theorem isEmpty_cons {node : Nat × (α × Int)} {rest : List (Nat × (α × Int))}
    (owns : Owns elements list (node :: rest)) : list.isEmpty = false := by
  rw [← Bool.not_eq_true, owns.isEmpty_iff]
  exact List.cons_ne_nil _ _

/-- A list with one element only. -/
theorem single (elements : Elements α) (real : address ≠ 0) (fresh : address ∉ elements) (item : α)
    (sortKey : Int) (empty : list.isEmpty = true) (owns : Owns elements list nodes) :
    Owns (newElement elements address item sortKey) ⟨address, address⟩ [(address, (item, sortKey))] ∧
      Replaces elements (newElement elements address item sortKey) (addresses nodes) [address] := by
  obtain rfl := owns.isEmpty_iff.mp empty
  have zero : list.first = 0 := owns.chain
  obtain ⟨chain, replaces⟩ := owns.chain.insertFirst real fresh (item, sortKey)
  rw [zero] at chain replaces
  exact ⟨⟨chain, rfl, List.nodup_singleton _⟩, replaces⟩

/-- A new element behind another one. -/
theorem insertAfter {front back : List (Nat × (α × Int))} {node : Nat × (α × Int)} {next last : Nat}
    (owns : Owns elements list (front ++ node :: back)) (real : address ≠ 0)
    (fresh : address ∉ elements) (found : elements.lookup node.1 = some ⟨node.2, next⟩)
    (value : α × Int)
    (ends : last = ((front ++ node :: (address, value) :: back).getLast?.map Prod.fst).getD 0) :
    Owns ((elements.insert address ⟨value, next⟩).insert node.1 ⟨node.2, address⟩)
        { list with last } (front ++ node :: (address, value) :: back) ∧
      Replaces elements ((elements.insert address ⟨value, next⟩).insert node.1 ⟨node.2, address⟩)
        (addresses (front ++ node :: back)) (addresses (front ++ node :: (address, value) :: back)) := by
  obtain ⟨chain, replaces⟩ := owns.chain.insertAfter owns.distinct real fresh found value
  refine ⟨⟨chain, ends, ?_⟩, replaces⟩
  -- The new address is none of the old ones, which belong to elements.
  have perm : (addresses (front ++ node :: (address, value) :: back)).Perm
      (address :: addresses (front ++ node :: back)) := by
    simp only [addresses_append, addresses_cons]
    exact (((List.Perm.swap _ _ _).append_left _).trans List.perm_middle)
  exact perm.nodup_iff.mpr (List.nodup_cons.mpr
    ⟨fun member => fresh (owns.chain.live _ member), owns.distinct⟩)

/-- An element is put behind the last one. -/
theorem atEnd (owns : Owns elements list nodes) (filled : nodes ≠ []) (real : address ≠ 0)
    (fresh : address ∉ elements) (item : α) (sortKey : Int) : ∃ after,
      setNext (newElement elements address item sortKey) list.last address = .ok after ∧
      Owns after { list with last := address } (nodes ++ [(address, (item, sortKey))]) ∧
      Replaces elements after (addresses nodes) (addresses (nodes ++ [(address, (item, sortKey))])) := by
  obtain ⟨front, node, rfl⟩ := (List.eq_nil_or_concat nodes).resolve_left filled
  rw [List.concat_eq_append] at owns ⊢
  -- The pointer to the last element is the address of the last node.
  have last : list.last = node.1 := by
    rw [owns.last, List.getLast?_concat]
    rfl
  obtain ⟨-, -, found⟩ := chain_concat.mp owns.chain
  obtain ⟨owns', replaces⟩ := owns.insertAfter real fresh found (item, sortKey)
    (show address = _ by rw [List.getLast?_append]; rfl)
  have differ : node.1 ≠ address := by
    rintro rfl
    exact fresh (Finmap.mem_of_lookup_eq_some found)
  rw [List.append_assoc, last]
  exact ⟨_, setNext_eq (by rw [newElement, Finmap.lookup_insert_of_ne _ differ, found]) _, owns',
    replaces⟩

/-- An element is put in front of the first one. -/
theorem inFront (owns : Owns elements list nodes) (filled : nodes ≠ []) (real : address ≠ 0)
    (fresh : address ∉ elements) (item : α) (sortKey : Int) : ∃ after,
      setNext (newElement elements address item sortKey) address list.first = .ok after ∧
      Owns after { list with first := address } ((address, (item, sortKey)) :: nodes) ∧
      Replaces elements after (addresses nodes) (addresses ((address, (item, sortKey)) :: nodes)) := by
  obtain ⟨chain, replaces⟩ := owns.chain.insertFirst real fresh (item, sortKey)
  refine ⟨_, setNext_newElement .., ⟨chain, ?_, ?_⟩, replaces⟩
  · -- The last element stays the last.
    obtain ⟨node, rest, rfl⟩ := List.exists_cons_of_ne_nil filled
    rw [List.getLast?_cons_cons]
    exact owns.last
  · exact List.nodup_cons.mpr ⟨fun member => fresh (owns.chain.live _ member), owns.distinct⟩

/-- `Append` puts an element at the end. -/
theorem append (owns : Owns elements list nodes) (real : address ≠ 0) (fresh : address ∉ elements)
    (item : α) : ∃ list' after, list.append elements address item = .ok (list', after) ∧
      Owns after list' (nodes ++ [(address, (item, 0))]) ∧
      Replaces elements after (addresses nodes) (addresses (nodes ++ [(address, (item, 0))])) := by
  rw [LinkedList.append]
  by_cases empty : list.isEmpty = true
  · obtain rfl := owns.isEmpty_iff.mp empty
    obtain ⟨owns', replaces⟩ := single elements real fresh item 0 empty owns
    exact ⟨_, _, if_pos empty, owns', replaces⟩
  · obtain ⟨after, done, rest⟩ :=
      owns.atEnd (fun none => empty (owns.isEmpty_iff.mpr none)) real fresh item 0
    exact ⟨_, after, by rw [if_neg empty, done]; rfl, rest⟩

/-- `Prepend` puts an element in front. -/
theorem prepend (owns : Owns elements list nodes) (real : address ≠ 0) (fresh : address ∉ elements)
    (item : α) : ∃ list' after, list.prepend elements address item = .ok (list', after) ∧
      Owns after list' ((address, (item, 0)) :: nodes) ∧
      Replaces elements after (addresses nodes) (addresses ((address, (item, 0)) :: nodes)) := by
  rw [LinkedList.prepend]
  by_cases empty : list.isEmpty = true
  · obtain rfl := owns.isEmpty_iff.mp empty
    obtain ⟨owns', replaces⟩ := single elements real fresh item 0 empty owns
    exact ⟨_, _, if_pos empty, owns', replaces⟩
  · obtain ⟨after, done, rest⟩ :=
      owns.inFront (fun none => empty (owns.isEmpty_iff.mpr none)) real fresh item 0
    exact ⟨_, after, by rw [if_neg empty, done]; rfl, rest⟩

/-- `SortedRemove` takes the first element off. -/
theorem sortedRemove (owns : Owns elements list nodes) :
    ∃ list' after, list.sortedRemove elements = .ok (nodes.head?.map Prod.snd, list', after) ∧
      Owns after list' nodes.tail ∧ Replaces elements after (addresses nodes) (addresses nodes.tail) := by
  cases nodes with
  | nil =>
    have empty := owns.isEmpty_iff.mpr rfl
    refine ⟨list, elements, ?_, owns, fun _ _ _ => rfl, fun _ member => by cases member⟩
    rw [LinkedList.sortedRemove, if_pos empty]
    rfl
  | cons node rest =>
    obtain ⟨start, real, next, found, behind⟩ := owns.chain
    obtain ⟨chain, replaces⟩ := owns.chain.removeFirst owns.distinct found
    -- The two pointers are equal when this was the only element.
    have only : list.first = list.last ↔ rest = [] := by
      rw [owns.last, start]
      cases rest with
      | nil => simp
      | cons other rest =>
        refine iff_of_false (fun same => ?_) (List.cons_ne_nil _ _)
        rw [List.getLast?_cons_cons] at same
        obtain ⟨last, found'⟩ := Option.isSome_iff_exists.mp
          (List.getLast?_isSome.mpr (List.cons_ne_nil other rest))
        rw [found'] at same
        exact (List.nodup_cons.mp owns.distinct).1
          (same ▸ List.mem_map_of_mem (List.mem_of_getLast? found'))
    refine ⟨if list.first = list.last then ⟨0, 0⟩ else { list with first := next }, _, ?_, ?_,
      replaces⟩
    · rw [LinkedList.sortedRemove, if_neg (by rw [owns.isEmpty_cons]; exact Bool.false_ne_true), start,
        element_eq found, Runs.ok_bind, deleteElement, element_eq found]
      rfl
    · have distinct := (List.nodup_cons.mp owns.distinct).2
      split
      · rename_i same
        obtain rfl := only.mp same
        exact ⟨rfl, rfl, distinct⟩
      · rename_i differ
        refine ⟨chain, ?_, distinct⟩
        obtain ⟨other, rest', rfl⟩ := List.exists_cons_of_ne_nil fun none => differ (only.mpr none)
        rw [owns.last, List.getLast?_cons_cons]
        rfl

/-- `Remove` takes the first element off. -/
theorem remove (owns : Owns elements list nodes) : ∃ list' after,
    list.remove elements = .ok ((nodes.head?.map Prod.snd).map Prod.fst, list', after) ∧
      Owns after list' nodes.tail ∧ Replaces elements after (addresses nodes) (addresses nodes.tail) := by
  obtain ⟨list', after, removed, rest⟩ := owns.sortedRemove
  refine ⟨list', after, ?_, rest⟩
  rw [LinkedList.remove, removed]
  rfl

end Owns

/-- The loop of `SortedInsert` finds the element behind which the new one goes. -/
theorem findPlace_spec {turns : Nat} : ∀ {node : Nat × (α × Int)} {rest : List (Nat × (α × Int))},
    Chain elements node.1 (node :: rest) 0 → rest.length < turns → node.2.2 ≤ sortKey →
    (findPlace elements sortKey turns node.1 = .ok none ∧ ∀ other ∈ rest, other.2.2 ≤ sortKey) ∨
      ∃ front place next back, node :: rest = front ++ place :: next :: back ∧
        findPlace elements sortKey turns node.1 = .ok (some place.1) ∧ sortKey < next.2.2 ∧
        ∀ other ∈ front ++ [place], other.2.2 ≤ sortKey := by
  induction turns with
  | zero => exact fun _ few => absurd few (Nat.not_lt_zero _)
  | succ turns ih =>
    intro node rest chain enough small
    obtain ⟨-, -, next, found, behind⟩ := chain
    cases rest with
    | nil =>
      -- This is the last element.
      obtain rfl : next = 0 := behind
      refine .inl ⟨?_, fun other member => by cases member⟩
      rw [findPlace, element_eq found]
      rfl
    | cons following rest =>
      have real := behind.2.1
      obtain rfl := behind.start_eq
      obtain ⟨-, -, after, found', -⟩ := id behind
      have turn : findPlace elements sortKey (turns + 1) node.1 =
          if sortKey < following.2.2 then .ok (some node.1)
          else findPlace elements sortKey turns following.1 := by
        rw [findPlace, element_eq found, Runs.ok_bind]
        dsimp only
        rw [if_neg real, element_eq found']
        rfl
      rw [turn]
      by_cases larger : sortKey < following.2.2
      · refine .inr ⟨[], node, following, rest, rfl, if_pos larger, larger, fun other member => ?_⟩
        rw [List.nil_append, List.mem_singleton] at member
        exact member ▸ small
      · rw [if_neg larger]
        rcases ih behind (Nat.lt_of_succ_lt_succ enough) (not_lt.mp larger) with
          ⟨none, smaller⟩ | ⟨front, place, next', back, split, done, larger', smaller⟩
        · -- The loop goes on to the end of the list.
          refine .inl ⟨none, fun other member => ?_⟩
          rcases List.mem_cons.mp member with rfl | member
          · exact not_lt.mp larger
          · exact smaller other member
        · refine .inr ⟨node :: front, place, next', back, by rw [split]; rfl, done, larger',
            fun other member => ?_⟩
          rcases List.mem_cons.mp member with rfl | member
          · exact small
          · exact smaller other member

/-- The loop of `Apply` visits all elements in order. -/
theorem applyLoop_eq {turns : Nat} : ∀ {start : Nat} {nodes : List (Nat × (α × Int))},
    Chain elements start nodes 0 → nodes.length < turns →
    applyLoop elements turns start = .ok ((values nodes).map Prod.fst) := by
  induction turns with
  | zero => exact fun _ few => absurd few (Nat.not_lt_zero _)
  | succ turns ih =>
    intro start nodes chain enough
    cases nodes with
    | nil =>
      obtain rfl : start = 0 := chain
      rfl
    | cons node rest =>
      obtain ⟨rfl, real, next, found, behind⟩ := chain
      rw [applyLoop, if_neg real, element_eq found, Runs.ok_bind]
      dsimp only
      rw [ih behind (Nat.lt_of_succ_lt_succ enough)]
      rfl

/-- `Apply` calls the function for all items in order. -/
theorem Owns.apply (owns : Owns elements list nodes) :
    list.apply elements = .ok ((values nodes).map Prod.fst) :=
  applyLoop_eq owns.chain (Nat.lt_succ_of_le (owns.chain.length_le owns.distinct))

/-- The loop of `~List` frees all elements. -/
theorem destructLoop_spec {turns : Nat} : ∀ {list : LinkedList} {elements : Elements α}
    {nodes : List (Nat × (α × Int))}, Owns elements list nodes → nodes.length < turns →
    ∃ after, destructLoop turns list elements = .ok after ∧
      Replaces elements after (addresses nodes) [] := by
  induction turns with
  | zero => exact fun _ few => absurd few (Nat.not_lt_zero _)
  | succ turns ih =>
    intro list elements nodes owns enough
    rw [destructLoop]
    cases nodes with
    | nil =>
      refine ⟨elements, if_pos (owns.isEmpty_iff.mpr rfl), fun _ _ _ => rfl, ?_⟩
      exact fun _ member => by cases member
    | cons node rest =>
      -- One turn frees the first element, the later turns the others.
      obtain ⟨list', middle, removed, owns', replaces⟩ := owns.remove
      obtain ⟨after, done, replaces'⟩ := ih owns' (Nat.lt_of_succ_lt_succ enough)
      refine ⟨after, ?_, replaces.trans replaces' fun address => List.mem_cons_of_mem _⟩
      rw [if_neg (by rw [owns.isEmpty_cons]; exact Bool.false_ne_true), removed]
      exact done

/-- `~List` frees all elements of a list. -/
theorem Owns.destruct (owns : Owns elements list nodes) :
    ∃ after, list.destruct elements = .ok after ∧ Replaces elements after (addresses nodes) [] :=
  destructLoop_spec owns (Nat.lt_succ_of_le (owns.chain.length_le owns.distinct))

/-- A new element leaves a list as it is until a pointer leads to it. -/
theorem Owns.newElement (owns : Owns elements list nodes) (fresh : address ∉ elements) (item : α)
    (sortKey : Int) : Owns (newElement elements address item sortKey) list nodes := by
  refine ⟨owns.chain.congr fun other member => ?_, owns.last, owns.distinct⟩
  apply Finmap.lookup_insert_of_ne
  rintro rfl
  exact fresh (owns.chain.live _ member)

/-- `SortedInsert` puts an element in front of the first one with a larger key. -/
theorem Owns.sortedInsert (owns : Owns elements list nodes) (real : address ≠ 0)
    (fresh : address ∉ elements) (item : α) (sortKey : Int) : ∃ list' after nodes',
      list.sortedInsert elements address item sortKey = .ok (list', after) ∧ Owns after list' nodes' ∧
      Replaces elements after (addresses nodes) (addresses nodes') ∧
      values nodes' = Sorted.sortedInsert item sortKey (values nodes) ∧
      (addresses nodes').Perm (address :: addresses nodes) := by
  cases nodes with
  | nil =>
    have empty := owns.isEmpty_iff.mpr rfl
    obtain ⟨owns', replaces⟩ := single elements real fresh item sortKey empty owns
    refine ⟨_, _, _, ?_, owns', replaces, rfl, List.Perm.refl _⟩
    rw [LinkedList.sortedInsert, if_pos empty]
    rfl
  | cons node rest =>
    have filled : ¬ list.isEmpty = true := by
      rw [owns.isEmpty_cons]
      exact Bool.false_ne_true
    have owns' := owns.newElement fresh item sortKey
    obtain ⟨start, -, next, found, -⟩ := owns'.chain
    rw [LinkedList.sortedInsert, if_neg filled, start, element_eq found, Runs.ok_bind]
    by_cases smaller : sortKey < node.2.2
    · -- The item goes on the front of the list.
      obtain ⟨after, done, owns'', replaces⟩ :=
        owns.inFront (List.cons_ne_nil _ _) real fresh item sortKey
      rw [start] at done
      refine ⟨_, after, _, ?_, owns'', replaces, ?_, List.Perm.refl _⟩
      · rw [if_pos smaller, done]
        rfl
      · rw [values_cons, values_cons, Sorted.sortedInsert_of_lt smaller]
    · rw [if_neg smaller]
      have chain := owns'.chain
      rw [start] at chain
      have length := chain.length_le owns'.distinct
      rw [List.length_cons] at length
      have enough : rest.length <
          (LinkedList.newElement elements address item sortKey).keys.card + 1 := by omega
      rcases findPlace_spec chain enough (not_lt.mp smaller) with
        ⟨none, all⟩ | ⟨front, place, following, back, split, done, larger, all⟩
      · -- The item goes at the end of the list.
        obtain ⟨after, done, owns'', replaces⟩ :=
          owns.atEnd (List.cons_ne_nil _ _) real fresh item sortKey
        refine ⟨_, after, _, ?_, owns'', replaces, ?_, ?_⟩
        · rw [none, Runs.ok_bind]
          dsimp only
          rw [done, start]
          rfl
        · have behind := @Sorted.sortedInsert_append _ _ _ item sortKey (values (node :: rest)) []
            fun other member => ?_
          · rw [List.append_nil] at behind
            rw [behind, values_append]
            rfl
          · obtain ⟨owner, among, rfl⟩ := List.mem_map.mp member
            rcases List.mem_cons.mp among with rfl | among
            · exact not_lt.mp smaller
            · exact all owner among
        · rw [addresses_append]
          exact List.perm_append_singleton _ _
      · -- The item goes between two elements.
        rw [split] at owns chain ⊢
        obtain ⟨-, -, -, -, next', found', behind⟩ := chain_append.mp owns.chain
        obtain rfl := behind.start_eq
        obtain ⟨owns'', replaces⟩ := owns.insertAfter real fresh found' (item, sortKey)
          (show list.last = _ by rw [owns.last]; simp [List.getLast?_append, List.getLast?_cons_cons])
        have differ : place.1 ≠ address := by
          rintro rfl
          exact fresh (Finmap.mem_of_lookup_eq_some found')
        refine ⟨list, _, _, ?_, owns'', replaces, ?_, ?_⟩
        · rw [done, Runs.ok_bind]
          dsimp only
          rw [element_eq (by rw [LinkedList.newElement, Finmap.lookup_insert_of_ne _ differ, found']),
            Runs.ok_bind]
          dsimp only
          rw [setNext_newElement, Runs.ok_bind,
            setNext_eq (by rw [Finmap.lookup_insert_of_ne _ differ, found'])]
          rfl
        · have fore : ∀ other ∈ values (front ++ [place]), other.2 ≤ sortKey := by
            intro other member
            obtain ⟨owner, among, rfl⟩ := List.mem_map.mp member
            exact all owner among
          have parts : values (front ++ place :: following :: back) =
              values (front ++ [place]) ++ values (following :: back) := by
            rw [← values_append, List.append_assoc]
            rfl
          rw [parts, Sorted.sortedInsert_append fore, values_cons,
            Sorted.sortedInsert_of_lt larger, values_append, values_append, List.append_assoc]
          rfl
        · simp only [addresses_append, addresses_cons]
          exact ((List.Perm.swap _ _ _).append_left _).trans List.perm_middle

end LinkedList

end Nachos.Threads
