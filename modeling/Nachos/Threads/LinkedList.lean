import Mathlib.Logic.Function.Basic
import Nachos.Lib.Chains
import Nachos.Lib.Runs
import Nachos.Lib.Sorted
import Nachos.Machine.Translate

/-! The lists of `list.h`: elements on the heap that point to each other, for items of any type. -/

namespace Nachos.Threads

open Chains

variable {α : Type}

/-- The elements of all lists: an item with its key, and the address of the next element. -/
abbrev Elements (α : Type) := Heap (α × Int)

/-- `List`: the addresses of its first and its last element, or zero twice. -/
structure LinkedList where
  first : Nat
  last : Nat
  deriving DecidableEq

namespace LinkedList

/-- Follow the pointer to an element. -/
def element (elements : Elements α) (address : Nat) : Except Fault (Cell (α × Int)) :=
  match elements.lookup address with
  | none => .error (.wildAccess address)
  | some cell => .ok cell

/-- `ListElement::ListElement`, of an element that the allocator puts at an address. -/
def newElement (elements : Elements α) (address : Nat) (item : α) (sortKey : Int) : Elements α :=
  elements.insert address ⟨(item, sortKey), 0⟩

/-- The assignment of a pointer to the `next` of an element. -/
def setNext (elements : Elements α) (address next : Nat) : Except Fault (Elements α) := do
  let cell ← element elements address
  return elements.insert address { cell with next }

/-- `delete` of an element. -/
def deleteElement (elements : Elements α) (address : Nat) : Except Fault (Elements α) := do
  let _ ← element elements address
  return elements.erase address

/-- `List::List`. -/
def new : LinkedList := ⟨0, 0⟩

/-- `List::IsEmpty`. -/
def isEmpty (list : LinkedList) : Bool := list.first == 0

/-- `List::Append`. -/
def append (list : LinkedList) (elements : Elements α) (address : Nat) (item : α) :
    Except Fault (LinkedList × Elements α) := do
  let elements := newElement elements address item 0
  if list.isEmpty then return (⟨address, address⟩, elements)
  else
    let elements ← setNext elements list.last address
    return ({ list with last := address }, elements)

/-- `List::Prepend`. -/
def prepend (list : LinkedList) (elements : Elements α) (address : Nat) (item : α) :
    Except Fault (LinkedList × Elements α) := do
  let elements := newElement elements address item 0
  if list.isEmpty then return (⟨address, address⟩, elements)
  else
    let elements ← setNext elements address list.first
    return ({ list with first := address }, elements)

/-- `List::SortedRemove`. Where the source answers `Item()`, so does `none`. -/
def sortedRemove (list : LinkedList) (elements : Elements α) :
    Except Fault (Option (α × Int) × LinkedList × Elements α) := do
  if list.isEmpty then return (none, list, elements)
  else
    let cell ← element elements list.first
    let after := if list.first = list.last then ⟨0, 0⟩ else { list with first := cell.next }
    let elements ← deleteElement elements list.first
    return (some cell.value, after, elements)

/-- `List::Remove`: the key is ignored. -/
def remove (list : LinkedList) (elements : Elements α) :
    Except Fault (Option α × LinkedList × Elements α) := do
  let (thing, list, elements) ← list.sortedRemove elements
  return (thing.map Prod.fst, list, elements)

/-- The loop of `List::SortedInsert`: the element behind which the new one goes, if not the last. -/
def findPlace (elements : Elements α) (sortKey : Int) : Nat → Nat → Except Fault (Option Nat)
  | 0, _ => .error .diverges
  | turns + 1, ptr => do
    let cell ← element elements ptr
    if cell.next = 0 then return none
    else
      let following ← element elements cell.next
      if sortKey < following.value.2 then return some ptr
      else findPlace elements sortKey turns cell.next

/-- `List::SortedInsert`. -/
def sortedInsert (list : LinkedList) (elements : Elements α) (address : Nat) (item : α)
    (sortKey : Int) : Except Fault (LinkedList × Elements α) := do
  let elements := newElement elements address item sortKey
  if list.isEmpty then return (⟨address, address⟩, elements)
  else
    let head ← element elements list.first
    if sortKey < head.value.2 then
      let elements ← setNext elements address list.first
      return ({ list with first := address }, elements)
    else
      -- An element is visited once at most, so the heap has enough of them for all turns.
      match ← findPlace elements sortKey (elements.keys.card + 1) list.first with
      | some ptr =>
        let cell ← element elements ptr
        let elements ← setNext elements address cell.next
        let elements ← setNext elements ptr address
        return (list, elements)
      | none =>
        let elements ← setNext elements list.last address
        return ({ list with last := address }, elements)

/-- The loop of `List::Apply`: the items in the order of the calls. -/
def applyLoop (elements : Elements α) : Nat → Nat → Except Fault (List α)
  | 0, _ => .error .diverges
  | turns + 1, ptr => do
    if ptr = 0 then return []
    else
      let cell ← element elements ptr
      let rest ← applyLoop elements turns cell.next
      return cell.value.1 :: rest

/-- `List::Apply`, of a function that leaves the lists alone. -/
def apply (list : LinkedList) (elements : Elements α) : Except Fault (List α) :=
  applyLoop elements (elements.keys.card + 1) list.first

/-- The loop of `List::~List`. -/
def destructLoop : Nat → LinkedList → Elements α → Except Fault (Elements α)
  | 0, _, _ => .error .diverges
  | turns + 1, list, elements => do
    if list.isEmpty then return elements
    else
      let (_, list, elements) ← list.remove elements
      destructLoop turns list elements

/-- `List::~List`. -/
def destruct (list : LinkedList) (elements : Elements α) : Except Fault (Elements α) :=
  destructLoop (elements.keys.card + 1) list elements

end LinkedList

/-- The lists of a program, with all their elements. -/
structure Lists (α : Type) where
  elements : Elements α
  lists : Nat → Option LinkedList

/-- What a program does with its lists; the allocator chooses the address of a new element. -/
inductive ListCall (α : Type) where
  | construct (name : Nat)
  | destruct (name : Nat)
  | append (name address : Nat) (item : α)
  | prepend (name address : Nat) (item : α)
  | remove (name : Nat)
  | sortedInsert (name address : Nat) (item : α) (sortKey : Int)
  | sortedRemove (name : Nat)
  | apply (name : Nat)
  | isEmpty (name : Nat)

/-- What a call answers, as far as it answers anything. -/
structure ListAnswer (α : Type) where
  thing : Option α
  key : Option Int
  visited : List α
  empty : Bool

namespace Lists

/-- An answer of a call that answers nothing. -/
def nothing : ListAnswer α := ⟨none, none, [], false⟩

/-- The list that a call is about. -/
def find (system : Lists α) (name : Nat) : Except Fault LinkedList :=
  match system.lists name with
  | none => .error (.wildAccess name)
  | some list => .ok list

/-- The lists after one of them was changed. -/
def withList (system : Lists α) (name : Nat) (list : Option LinkedList) (elements : Elements α) :
    Lists α :=
  ⟨elements, Function.update system.lists name list⟩

/-- One call: its answer, and the lists after it. -/
def perform (system : Lists α) : ListCall α → Except Fault (ListAnswer α × Lists α)
  | .construct name => .ok (nothing, system.withList name (some .new) system.elements)
  | .destruct name => do
    let list ← system.find name
    let elements ← list.destruct system.elements
    return (nothing, system.withList name none elements)
  | .append name address item => do
    let list ← system.find name
    let (list, elements) ← list.append system.elements address item
    return (nothing, system.withList name (some list) elements)
  | .prepend name address item => do
    let list ← system.find name
    let (list, elements) ← list.prepend system.elements address item
    return (nothing, system.withList name (some list) elements)
  | .remove name => do
    let list ← system.find name
    let (thing, list, elements) ← list.remove system.elements
    return ({ nothing with thing }, system.withList name (some list) elements)
  | .sortedInsert name address item sortKey => do
    let list ← system.find name
    let (list, elements) ← list.sortedInsert system.elements address item sortKey
    return (nothing, system.withList name (some list) elements)
  | .sortedRemove name => do
    let list ← system.find name
    let (found, list, elements) ← list.sortedRemove system.elements
    return ({ nothing with thing := found.map Prod.fst, key := found.map Prod.snd },
      system.withList name (some list) elements)
  | .apply name => do
    let list ← system.find name
    let visited ← list.apply system.elements
    return ({ nothing with visited }, system)
  | .isEmpty name => do
    let list ← system.find name
    return ({ nothing with empty := list.isEmpty }, system)

/-- One call, whatever the answer. -/
def step (system : Lists α) (call : ListCall α) : Except Fault (Lists α) := do
  let (_, after) ← system.perform call
  return after

/-- No lists and no elements. -/
def Fresh (system : Lists α) : Prop := system = ⟨∅, fun _ => none⟩

/-- An address that the allocator may hand out. -/
def Free (system : Lists α) (address : Nat) : Prop := address ≠ 0 ∧ address ∉ system.elements

/-- Calls are for lists that were constructed, and new elements get memory that is free. -/
def Proper (system : Lists α) : ListCall α → Prop
  | .construct name => system.lists name = none
  | .append name address _ | .prepend name address _ | .sortedInsert name address _ _ =>
    system.lists name ≠ none ∧ system.Free address
  | .destruct name | .remove name | .sortedRemove name | .apply name | .isEmpty name =>
    system.lists name ≠ none

/-- Whether a call is proper can be decided. -/
instance Proper.decide (system : Lists α) : ∀ call, Decidable (system.Proper call)
  | .construct name => inferInstanceAs (Decidable (system.lists name = none))
  | .append name address _ | .prepend name address _ | .sortedInsert name address _ _ =>
    inferInstanceAs (Decidable
      (system.lists name ≠ none ∧ address ≠ 0 ∧ address ∉ system.elements))
  | .destruct name | .remove name | .sortedRemove name | .apply name | .isEmpty name =>
    inferInstanceAs (Decidable (system.lists name ≠ none))

end Lists

end Nachos.Threads
