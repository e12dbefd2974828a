import Nachos.Threads.LinkedListLaws

/-! A program that uses the lists of `list.h` cannot tell them from queues without any pointers. -/

namespace Nachos.Threads

open Chains

variable {α : Type}

/-- The lists that exist by name, each with its items and their keys, from the front. -/
abbrev Queues (α : Type) := Nat → Option (List (α × Int))

/-- What happens to queues, with the answers that a program gets. -/
inductive QueueEvent (α : Type) where
  | constructed (name : Nat)
  | destructed (name : Nat)
  | appended (name : Nat) (item : α)
  | prepended (name : Nat) (item : α)
  | removed (name : Nat) (thing : Option α)
  | sortedInserted (name : Nat) (item : α) (sortKey : Int)
  | sortedRemoved (name : Nat) (thing : Option α) (key : Option Int)
  | applied (name : Nat) (visited : List α)
  | askedEmpty (name : Nat) (empty : Bool)
  deriving DecidableEq

namespace QueueEvent

/-- The queue that an event is about. -/
def name : QueueEvent α → Nat
  | .constructed name | .destructed name | .appended name _ | .prepended name _ | .removed name _
  | .sortedInserted name _ _ | .sortedRemoved name _ _ | .applied name _ | .askedEmpty name _ => name

/-- What an event makes of the queue that it is about. -/
def change : QueueEvent α → Option (List (α × Int)) → Option (List (α × Int))
  | .constructed _, _ => some []
  | .destructed _, _ => none
  | .appended _ item, queue => queue.map (· ++ [(item, 0)])
  | .prepended _ item, queue => queue.map ((item, 0) :: ·)
  | .removed _ _, queue | .sortedRemoved _ _ _, queue => queue.map List.tail
  | .sortedInserted _ item sortKey, queue => queue.map (Sorted.sortedInsert item sortKey)
  | .applied _ _, queue | .askedEmpty _ _, queue => queue

/-- An answer is that of a queue with these items. -/
def Fits (items : List (α × Int)) : QueueEvent α → Prop
  | .removed _ thing => thing = items.head?.map Prod.fst
  | .sortedRemoved _ thing key =>
    thing = items.head?.map Prod.fst ∧ key = items.head?.map Prod.snd
  | .applied _ visited => visited = items.map Prod.fst
  | .askedEmpty _ empty => empty = items.isEmpty
  | _ => True

/-- A queue is constructed while there is none of the name, and otherwise there is one. -/
def Allowed : Option (List (α × Int)) → QueueEvent α → Prop
  | none, .constructed _ => True
  | some items, event => (∀ name, event ≠ .constructed name) ∧ Fits items event
  | none, _ => False

end QueueEvent

namespace Queues

/-- The queues after an event. -/
def apply (queues : Queues α) (event : QueueEvent α) : Queues α :=
  Function.update queues event.name (event.change (queues event.name))

/-- What queues allow to happen. -/
def Allows (queues : Queues α) (event : QueueEvent α) : Prop :=
  QueueEvent.Allowed (queues event.name) event

end Queues

namespace Lists

variable {system : Lists α} {queues : Queues α} {nodes : Nat → List (Nat × (α × Int))} {name : Nat}
  {list : LinkedList} {elements : Elements α}

/-- A call with its answer, as an event. -/
def event (answer : ListAnswer α) : ListCall α → QueueEvent α
  | .construct name => .constructed name
  | .destruct name => .destructed name
  | .append name _ item => .appended name item
  | .prepend name _ item => .prepended name item
  | .remove name => .removed name answer.thing
  | .sortedInsert name _ item sortKey => .sortedInserted name item sortKey
  | .sortedRemove name => .sortedRemoved name answer.thing answer.key
  | .apply name => .applied name answer.visited
  | .isEmpty name => .askedEmpty name answer.empty

/-- Every call is recorded with its answer. -/
def observe (system : Lists α) (call : ListCall α) (_ : Lists α) : List (QueueEvent α) :=
  match system.perform call with
  | .error _ => []
  | .ok (answer, _) => [event answer call]

/-- A pointer for each list, its elements on the heap, and the queue that it stands for. -/
inductive Stands (elements : Elements α) (nodes : List (Nat × (α × Int))) :
    Option LinkedList → Option (List (α × Int)) → Prop
  | absent : nodes = [] → Stands elements nodes none none
  | present {list : LinkedList} : list.Owns elements nodes →
      Stands elements nodes (some list) (some (values nodes))

/-- The lists stand for queues, share no elements, and every element on the heap is one of theirs. -/
structure Holds (system : Lists α) (queues : Queues α) (nodes : Nat → List (Nat × (α × Int))) :
    Prop where
  stands : ∀ name, Stands system.elements (nodes name) (system.lists name) (queues name)
  apart : ∀ name other, name ≠ other → ∀ address ∈ addresses (nodes name),
    address ∉ addresses (nodes other)
  owned : ∀ address ∈ system.elements, ∃ name, address ∈ addresses (nodes name)

/-- The lists stand for queues without pointers. -/
def Represents (system : Lists α) (queues : Queues α) : Prop := ∃ nodes, Holds system queues nodes

/-- The elements of a list that stands for a queue are on the heap. -/
theorem Stands.live {nodes : List (Nat × (α × Int))} {list : Option LinkedList}
    {queue : Option (List (α × Int))} (stands : Stands elements nodes list queue) :
    ∀ address ∈ addresses nodes, address ∈ elements := by
  cases stands with
  | absent none => exact fun address member => by rw [none] at member; cases member
  | present owns => exact owns.chain.live

/-- A list stands for its queue as long as its own elements are left alone. -/
theorem Stands.congr {nodes : List (Nat × (α × Int))} {list : Option LinkedList}
    {queue : Option (List (α × Int))} {after : Elements α} (stands : Stands elements nodes list queue)
    (same : ∀ address ∈ addresses nodes, after.lookup address = elements.lookup address) :
    Stands after nodes list queue := by
  cases stands with
  | absent none => exact .absent none
  | present owns => exact .present ⟨owns.chain.congr same, owns.last, owns.distinct⟩

namespace Holds

/-- One list is changed, and takes only free memory for it; the others stay what they were. -/
theorem withList (holds : Holds system queues nodes) {list : Option LinkedList}
    {queue : Option (List (α × Int))} {new : List (Nat × (α × Int))}
    (stands : Stands elements new list queue)
    (replaces : Replaces system.elements elements (addresses (nodes name)) (addresses new))
    (taken : ∀ address ∈ addresses new, address ∈ addresses (nodes name) ∨
      address ∉ system.elements) :
    Holds (system.withList name list elements) (Function.update queues name queue)
      (Function.update nodes name new) := by
  -- The elements of another list are none of this one, before and after.
  have outside : ∀ other, other ≠ name → ∀ address ∈ addresses (nodes other),
      address ∉ addresses (nodes name) ∧ address ∉ addresses new := by
    intro other differ address member
    have apart := holds.apart other name differ address member
    refine ⟨apart, fun among => ?_⟩
    exact (taken address among).elim apart fun free => free ((holds.stands other).live _ member)
  constructor
  · intro other
    rw [Lists.withList]
    by_cases same : other = name
    · subst same
      simpa only [Function.update_self] using stands
    · simp only [Function.update_of_ne same]
      refine (holds.stands other).congr fun address member => ?_
      exact replaces.frame address (outside other same address member).1
        (outside other same address member).2
  · intro first second differ address member
    by_cases one : first = name
    · subst one
      rw [Function.update_self] at member
      rw [Function.update_of_ne differ.symm]
      exact fun among => (outside second differ.symm address among).2 member
    · rw [Function.update_of_ne one] at member
      by_cases two : second = name
      · subst two
        rw [Function.update_self]
        exact (outside first one address member).2
      · rw [Function.update_of_ne two]
        exact holds.apart first second differ address member
  · intro address live
    by_cases among : address ∈ addresses new
    · exact ⟨name, by rwa [Function.update_self]⟩
    · -- An element that is no longer in the list was freed.
      have before : address ∉ addresses (nodes name) := by
        intro member
        exact Finmap.lookup_eq_none.mp (replaces.freed address member among) live
      have earlier : address ∈ system.elements := by
        rw [← Finmap.lookup_isSome, ← replaces.frame address before among, Finmap.lookup_isSome]
        exact live
      obtain ⟨owner, member⟩ := holds.owned address earlier
      have other : owner ≠ name := fun same => before (same ▸ member)
      exact ⟨owner, by rwa [Function.update_of_ne other]⟩

/-- A name of a list is a name of its queue. -/
theorem found (holds : Holds system queues nodes) (known : system.lists name ≠ none) :
    ∃ list, system.find name = .ok list ∧ list.Owns system.elements (nodes name) ∧
      queues name = some (values (nodes name)) := by
  have stands := holds.stands name
  rw [find]
  generalize system.lists name = pointer at known stands ⊢
  generalize queues name = queue at stands ⊢
  cases stands with
  | absent none => exact absurd rfl known
  | present owns => exact ⟨_, rfl, owns, rfl⟩

/-- A name without a list is a name without a queue. -/
theorem missing (holds : Holds system queues nodes) (unknown : system.lists name = none) :
    queues name = none ∧ nodes name = [] := by
  have stands := holds.stands name
  rw [unknown] at stands
  generalize queues name = queue at stands ⊢
  cases stands with
  | absent none => exact ⟨rfl, none⟩

end Holds

/-- A call is answered as the queues allow it, and leaves lists that stand for the queues after it. -/
def Answered (system : Lists α) (queues : Queues α) (call : ListCall α) : Prop :=
  ∃ answer after, system.perform call = .ok (answer, after) ∧ queues.Allows (event answer call) ∧
    Represents after (queues.apply (event answer call))

namespace Holds

variable {address : Nat}

/-- The list of a name gets other elements, of which at most one is new. -/
theorem changed (holds : Holds system queues nodes) {new : List (Nat × (α × Int))}
    {happened : QueueEvent α} (about : happened.name = name) (owns : list.Owns elements new)
    (replaces : Replaces system.elements elements (addresses (nodes name)) (addresses new))
    (taken : ∀ address ∈ addresses new, address ∈ addresses (nodes name) ∨
      address ∉ system.elements)
    (queue : happened.change (queues name) = some (values new)) :
    Represents (system.withList name (some list) elements) (queues.apply happened) := by
  refine ⟨Function.update nodes name new, ?_⟩
  rw [Queues.apply, about, queue]
  exact holds.withList (.present owns) replaces taken

/-- A new element comes to those of a list. -/
theorem taken_of_perm {new : List (Nat × (α × Int))}
    (free : system.Free address)
    (perm : (addresses new).Perm (address :: addresses (nodes name))) :
    ∀ other ∈ addresses new, other ∈ addresses (nodes name) ∨ other ∉ system.elements := by
  intro other member
  rcases List.mem_cons.mp (perm.mem_iff.mp member) with rfl | member
  · exact .inr free.2
  · exact .inl member

/-- The first element of a list is taken off. -/
theorem taken_of_tail :
    ∀ other ∈ addresses (nodes name).tail, other ∈ addresses (nodes name) ∨
      other ∉ system.elements := by
  intro other member
  obtain ⟨node, among, rfl⟩ := List.mem_map.mp member
  exact .inl (List.mem_map_of_mem (List.mem_of_mem_tail among))

/-- A list is constructed without elements. -/
theorem construct (holds : Holds system queues nodes) (unknown : system.lists name = none) :
    Answered system queues (.construct name) := by
  obtain ⟨absent, none⟩ := holds.missing unknown
  refine ⟨_, _, rfl, ?_, ?_⟩
  · simp only [event, Queues.Allows, QueueEvent.name, absent, QueueEvent.Allowed]
  · have empty : LinkedList.new.Owns system.elements [] := ⟨rfl, rfl, List.nodup_nil⟩
    have replaces : Replaces system.elements system.elements (addresses (nodes name)) [] := by
      rw [none]
      exact ⟨fun _ _ _ => rfl, fun _ member => by cases member⟩
    exact holds.changed rfl empty replaces (fun _ member => by cases member) rfl

/-- A list is destructed with all its elements. -/
theorem destruct (holds : Holds system queues nodes) (known : system.lists name ≠ none) :
    Answered system queues (.destruct name) := by
  obtain ⟨list, found, owns, queue⟩ := holds.found known
  obtain ⟨elements, done, replaces⟩ := owns.destruct
  refine ⟨nothing, system.withList name none elements, ?_, ?_, Function.update nodes name [], ?_⟩
  · rw [perform, found, Runs.ok_bind, done]
    rfl
  · simp only [event, Queues.Allows, QueueEvent.name, queue, QueueEvent.Allowed, QueueEvent.Fits]
    exact ⟨fun _ same => (by cases same), trivial⟩
  · exact holds.withList (.absent rfl) replaces fun _ member => by cases member

/-- `Append` is answered. -/
theorem append (holds : Holds system queues nodes) (known : system.lists name ≠ none)
    (free : system.Free address) (item : α) :
    Answered system queues (.append name address item) := by
  obtain ⟨list, found, owns, queue⟩ := holds.found known
  obtain ⟨list', elements, done, owns', replaces⟩ := owns.append free.1 free.2 item
  refine ⟨nothing, system.withList name (some list') elements, ?_, ?_, ?_⟩
  · rw [perform, found, Runs.ok_bind, done]
    rfl
  · simp only [event, Queues.Allows, QueueEvent.name, queue, QueueEvent.Allowed, QueueEvent.Fits]
    exact ⟨fun _ same => (by cases same), trivial⟩
  · refine holds.changed rfl owns' replaces (taken_of_perm free ?_) ?_
    · rw [addresses_append]
      exact List.perm_append_singleton _ _
    · rw [event, QueueEvent.change, queue, values_append]
      rfl

/-- `Prepend` is answered. -/
theorem prepend (holds : Holds system queues nodes) (known : system.lists name ≠ none)
    (free : system.Free address) (item : α) :
    Answered system queues (.prepend name address item) := by
  obtain ⟨list, found, owns, queue⟩ := holds.found known
  obtain ⟨list', elements, done, owns', replaces⟩ := owns.prepend free.1 free.2 item
  refine ⟨nothing, system.withList name (some list') elements, ?_, ?_, ?_⟩
  · rw [perform, found, Runs.ok_bind, done]
    rfl
  · simp only [event, Queues.Allows, QueueEvent.name, queue, QueueEvent.Allowed, QueueEvent.Fits]
    exact ⟨fun _ same => (by cases same), trivial⟩
  · refine holds.changed rfl owns' replaces (taken_of_perm free (List.Perm.refl _)) ?_
    rw [event, QueueEvent.change, queue]
    rfl

/-- `SortedInsert` is answered. -/
theorem sortedInsert (holds : Holds system queues nodes) (known : system.lists name ≠ none)
    (free : system.Free address) (item : α) (sortKey : Int) :
    Answered system queues (.sortedInsert name address item sortKey) := by
  obtain ⟨list, found, owns, queue⟩ := holds.found known
  obtain ⟨list', elements, new, done, owns', replaces, content, perm⟩ :=
    owns.sortedInsert free.1 free.2 item sortKey
  refine ⟨nothing, system.withList name (some list') elements, ?_, ?_, ?_⟩
  · rw [perform, found, Runs.ok_bind, done]
    rfl
  · simp only [event, Queues.Allows, QueueEvent.name, queue, QueueEvent.Allowed, QueueEvent.Fits]
    exact ⟨fun _ same => (by cases same), trivial⟩
  · refine holds.changed rfl owns' replaces (taken_of_perm free perm) ?_
    rw [event, QueueEvent.change, queue, content]
    rfl

/-- What is first in a list is first in its queue. -/
theorem head_values (nodes : List (Nat × (α × Int))) :
    nodes.head?.map Prod.snd = (values nodes).head? := List.head?_map.symm

/-- What is left of a list is left of its queue. -/
theorem tail_values (nodes : List (Nat × (α × Int))) :
    values nodes.tail = (values nodes).tail := List.map_tail

/-- `SortedRemove` is answered. -/
theorem sortedRemove (holds : Holds system queues nodes) (known : system.lists name ≠ none) :
    Answered system queues (.sortedRemove name) := by
  obtain ⟨list, found, owns, queue⟩ := holds.found known
  obtain ⟨list', elements, done, owns', replaces⟩ := owns.sortedRemove
  rw [head_values] at done
  refine ⟨{ nothing with
      thing := (values (nodes name)).head?.map Prod.fst
      key := (values (nodes name)).head?.map Prod.snd },
    system.withList name (some list') elements, ?_, ?_, ?_⟩
  · rw [perform, found, Runs.ok_bind, done]
    rfl
  · simp only [event, Queues.Allows, QueueEvent.name, queue, QueueEvent.Allowed, QueueEvent.Fits]
    exact ⟨fun _ same => (by cases same), trivial, trivial⟩
  · refine holds.changed rfl owns' replaces taken_of_tail ?_
    rw [event, QueueEvent.change, queue, tail_values]
    rfl

/-- `Remove` is answered. -/
theorem remove (holds : Holds system queues nodes) (known : system.lists name ≠ none) :
    Answered system queues (.remove name) := by
  obtain ⟨list, found, owns, queue⟩ := holds.found known
  obtain ⟨list', elements, done, owns', replaces⟩ := owns.remove
  rw [head_values] at done
  refine ⟨{ nothing with thing := (values (nodes name)).head?.map Prod.fst },
    system.withList name (some list') elements, ?_, ?_, ?_⟩
  · rw [perform, found, Runs.ok_bind, done]
    rfl
  · simp only [event, Queues.Allows, QueueEvent.name, queue, QueueEvent.Allowed, QueueEvent.Fits]
    exact ⟨fun _ same => (by cases same), trivial⟩
  · refine holds.changed rfl owns' replaces taken_of_tail ?_
    rw [event, QueueEvent.change, queue, tail_values]
    rfl

/-- Queues stay what they are when a list was only looked at. -/
theorem looked (holds : Holds system queues nodes) {happened : QueueEvent α}
    (unchanged : happened.change (queues happened.name) = queues happened.name) :
    Represents system (queues.apply happened) := by
  rw [Queues.apply, unchanged, Function.update_eq_self]
  exact ⟨nodes, holds⟩

/-- `Apply` is answered. -/
theorem apply (holds : Holds system queues nodes) (known : system.lists name ≠ none) :
    Answered system queues (.apply name) := by
  obtain ⟨list, found, owns, queue⟩ := holds.found known
  refine ⟨{ nothing with visited := (values (nodes name)).map Prod.fst }, system, ?_, ?_,
    holds.looked rfl⟩
  · rw [perform, found, Runs.ok_bind, owns.apply]
    rfl
  · simp only [event, Queues.Allows, QueueEvent.name, queue, QueueEvent.Allowed, QueueEvent.Fits]
    exact ⟨fun _ same => (by cases same), trivial⟩

/-- `IsEmpty` is answered. -/
theorem isEmpty (holds : Holds system queues nodes) (known : system.lists name ≠ none) :
    Answered system queues (.isEmpty name) := by
  obtain ⟨list, found, owns, queue⟩ := holds.found known
  refine ⟨{ nothing with empty := list.isEmpty }, system, ?_, ?_, holds.looked rfl⟩
  · rw [perform, found]
    rfl
  · have same : list.isEmpty = (values (nodes name)).isEmpty := by
      rw [Bool.eq_iff_iff, owns.isEmpty_iff, List.isEmpty_iff, values, List.map_eq_nil_iff]
    simp only [event, Queues.Allows, QueueEvent.name, queue, QueueEvent.Allowed, QueueEvent.Fits]
    exact ⟨fun _ same => (by cases same), same⟩

end Holds

/-- A proper call is answered. -/
theorem Represents.answered (represents : Represents system queues) {call : ListCall α}
    (proper : system.Proper call) : Answered system queues call := by
  obtain ⟨nodes, holds⟩ := represents
  cases call with
  | construct name => exact holds.construct proper
  | destruct name => exact holds.destruct proper
  | append name address item => exact holds.append proper.1 proper.2 item
  | prepend name address item => exact holds.prepend proper.1 proper.2 item
  | remove name => exact holds.remove proper
  | sortedInsert name address item sortKey => exact holds.sortedInsert proper.1 proper.2 item sortKey
  | sortedRemove name => exact holds.sortedRemove proper
  | apply name => exact holds.apply proper
  | isEmpty name => exact holds.isEmpty proper

/-- Without lists there are no queues. -/
theorem represents_fresh (fresh : system.Fresh) : Represents system fun _ => none := by
  refine ⟨fun _ => [], fun name => ?_, fun _ _ _ _ member => ?_, fun address live => ?_⟩
  · rw [fresh]
    exact .absent rfl
  · cases member
  · rw [fresh] at live
    exact absurd live Finmap.notMem_empty

/-- What a proper call does to the lists, the queues allow. -/
theorem Represents.stepped (represents : Represents system queues) {call : ListCall α}
    (proper : system.Proper call) {after : Lists α} (stepped : system.step call = .ok after) :
    Runs.Accepts Queues.apply Queues.Allows queues (system.observe call after) ∧
      Represents after ((system.observe call after).foldl Queues.apply queues) := by
  obtain ⟨answer, after', performed, allowed, represents'⟩ := represents.answered proper
  rw [step, performed, Runs.ok_bind] at stepped
  cases stepped
  rw [observe, performed]
  exact ⟨⟨allowed, trivial⟩, represents'⟩

/--
The lists of `list.h` are queues, whatever a program does with them.

Every call for a list that was constructed is answered, as a queue without pointers answers it, and
the elements that were allocated and not freed are those of the lists, none of them in two.
-/
theorem serves_queues {history : List (QueueEvent α)}
    (traced : Runs.Traced step Fresh Proper observe system history) :
    Runs.Accepts Queues.apply Queues.Allows (fun _ => none) history ∧
      Represents system (history.foldl Queues.apply fun _ => none) ∧
      ∀ call, system.Proper call → ∃ after, system.step call = .ok after := by
  obtain ⟨accepted, represents⟩ := traced.refines Represents (fun _ => represents_fresh)
    fun _ _ _ _ represents proper stepped => represents.stepped proper stepped
  refine ⟨accepted, represents, fun call proper => ?_⟩
  obtain ⟨answer, after, performed, -⟩ := represents.answered proper
  exact ⟨after, by rw [step, performed]; rfl⟩

/-- Three items are inserted by their keys, and one of two lists is destructed with an item in it. -/
def insertThree : List (ListCall Nat) :=
  [.construct 0, .construct 1, .sortedInsert 0 7 30 3, .append 1 8 5, .sortedInsert 0 9 10 1,
    .sortedInsert 0 4 20 2, .apply 0, .destruct 1, .sortedRemove 0, .remove 0, .isEmpty 0]

/-- The items come out by their keys, from lists that queues would allow. -/
theorem serves_queues_insertThree : ∃ after,
    Runs.run step ⟨∅, fun _ => none⟩ insertThree = .ok after ∧
    (.applied 0 [10, 20, 30] : QueueEvent Nat) ∈
      Runs.record step observe ⟨∅, fun _ => none⟩ insertThree ∧
    Runs.Accepts Queues.apply Queues.Allows (fun _ => none)
      (Runs.record step observe ⟨∅, fun _ => none⟩ insertThree) := by
  have answers : Runs.runsTo step ⟨∅, fun _ => none⟩ insertThree (fun _ => true) = true := by
    decide +kernel
  obtain ⟨after, ran, -⟩ := Runs.exists_of_runsTo answers
  have guarded : Runs.Guarded step Proper ⟨∅, fun _ => none⟩ insertThree := by
    decide +kernel
  exact ⟨after, ran, by decide +kernel, (serves_queues (Runs.Traced.extend (.start rfl) guarded ran)).1⟩

end Lists

end Nachos.Threads
