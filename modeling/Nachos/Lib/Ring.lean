import Mathlib.Algebra.Order.Group.Nat
import Mathlib.Data.List.Perm.Subperm
import Mathlib.Data.List.Nodup
import Mathlib.Data.List.Chain
import Mathlib.Data.Nat.ModEq
import Mathlib.Data.Nat.GCD.Basic
import Mathlib.Logic.Function.Iterate

/-! Places in a circle: walking round it, and rings of links in both directions. -/

namespace Ring

universe u

variable {α : Type u} {next prev : α → α}

/-- The places met when walking a number of steps, the first one included. -/
def walk (next : α → α) : Nat → α → List α
  | 0, _ => []
  | steps + 1, place => place :: walk next steps (next place)

/-- As many places are met as steps are made. -/
@[simp] theorem walk_length (steps : Nat) (place : α) : (walk next steps place).length = steps := by
  induction steps generalizing place with
  | zero => rfl
  | succ steps ih => simp [walk, ih]

/-- The last place of a longer walk is where the shorter one led. -/
theorem walk_succ (steps : Nat) (place : α) :
    walk next (steps + 1) place = walk next steps place ++ [next^[steps] place] := by
  induction steps generalizing place with
  | zero => rfl
  | succ steps ih =>
    -- The first step is made by both walks, and the rest is the hypothesis at the next place.
    rw [walk, ih, walk, Function.iterate_succ_apply, List.cons_append]

/-- Once round the circle, a walk from the next place ends where the other one began. -/
theorem cons_walk {steps : Nat} {place : α} (lap : next^[steps] place = place) :
    place :: walk next steps (next place) = walk next steps place ++ [place] := by
  have both : walk next (steps + 1) place = _ := walk_succ steps place
  rw [lap] at both
  exact both

/-- A place met on a walk is reached in fewer steps. -/
theorem mem_walk {steps : Nat} {place other : α} :
    other ∈ walk next steps place ↔ ∃ step < steps, next^[step] place = other := by
  induction steps generalizing place with
  | zero => simp [walk]
  | succ steps ih =>
    rw [walk_succ, List.mem_append, ih, List.mem_singleton]
    constructor
    · rintro (⟨step, less, here⟩ | rfl)
      · exact ⟨step, Nat.lt_succ_of_lt less, here⟩
      · exact ⟨steps, Nat.lt_succ_self steps, rfl⟩
    · rintro ⟨step, less, here⟩
      rcases Nat.lt_succ_iff_lt_or_eq.mp less with less | rfl
      · exact .inl ⟨step, less, here⟩
      · exact .inr here.symm

/-- A walk that never comes back meets every place once. -/
theorem walk_nodup {steps : Nat} {place : α}
    (apart : ∀ i j, i < j → j < steps → next^[i] place ≠ next^[j] place) :
    (walk next steps place).Nodup := by
  induction steps with
  | zero => exact List.nodup_nil
  | succ steps ih =>
    rw [walk_succ]
    have shorter := ih fun i j less bound => apart i j less (Nat.lt_succ_of_lt bound)
    refine List.nodup_append.mpr ⟨shorter, List.nodup_singleton _, ?_⟩
    intro one met other last
    obtain ⟨step, less, rfl⟩ := mem_walk.mp met
    rw [List.mem_singleton.mp last]
    exact apart step steps less (Nat.lt_succ_self steps)

section Live

variable {steps : Nat} {place : α} {live : α → Bool}

/-- A place that does not count changes nothing about who comes after it. -/
theorem filter_walk_dead (lap : next^[steps] place = place) (dead : live place = false) :
    (walk next steps (next place)).filter live = (walk next steps place).filter live := by
  have both := congrArg (List.filter live) (cons_walk lap)
  simpa [dead] using both

/-- A place that counts is first in line before the step, and last after it. -/
theorem filter_walk_live (lap : next^[steps] place = place) (some_ : 0 < steps)
    (counts : live place = true) :
    ∃ rest, (walk next steps place).filter live = place :: rest ∧
      (walk next steps (next place)).filter live = rest ++ [place] := by
  obtain ⟨fewer, rfl⟩ := Nat.exists_eq_succ_of_ne_zero (Nat.ne_of_gt some_)
  refine ⟨(walk next fewer (next place)).filter live, ?_, ?_⟩
  · rw [walk, List.filter_cons_of_pos counts]
  · have head : walk next fewer.succ place = place :: walk next fewer (next place) := rfl
    have both := congrArg (List.filter live) (cons_walk lap)
    rw [head, List.cons_append, List.filter_cons_of_pos counts, List.filter_cons_of_pos counts,
      List.filter_append] at both
    simpa [counts] using (List.cons.inj both).2

end Live

section Turn

variable {size distance : Nat}

/-- The place a fixed distance further on a circle of places with numbers. -/
def turn (size distance place : Nat) : Nat := (place + distance) % size

/-- Where some turns lead. -/
theorem turn_iterate {place : Nat} (inside : place < size) (steps : Nat) :
    (turn size distance)^[steps] place = (place + steps * distance) % size := by
  induction steps with
  | zero => simp [Nat.mod_eq_of_lt inside]
  | succ steps ih =>
    rw [Function.iterate_succ_apply', ih, turn, Nat.mod_add_mod, Nat.succ_mul, Nat.add_assoc]

/-- As many turns as there are places lead back. -/
theorem turn_lap {place : Nat} (inside : place < size) :
    (turn size distance)^[size] place = place := by
  rw [turn_iterate inside, Nat.add_mul_mod_self_left, Nat.mod_eq_of_lt inside]

/-- A turn leads to a place of the circle. -/
theorem turn_lt (some_ : 0 < size) (place : Nat) : turn size distance place < size :=
  Nat.mod_lt _ some_

/-- Two turns that make a lap together lead back. -/
theorem turn_turn {place back : Nat} (inside : place < size) (whole : distance + back = size) :
    turn size back (turn size distance place) = place := by
  rw [turn, turn, Nat.mod_add_mod, Nat.add_assoc, whole, Nat.add_mod_right, Nat.mod_eq_of_lt inside]

/-- Every place is met once in a lap, when the distance has no divisor in common with the size. -/
theorem walk_turn_nodup {place : Nat} (inside : place < size) (coprime : size.Coprime distance) :
    (walk (turn size distance) size place).Nodup := by
  refine walk_nodup fun i j less bound same => ?_
  rw [turn_iterate inside, turn_iterate inside] at same
  have product : i * distance ≡ j * distance [MOD size] := Nat.ModEq.add_left_cancel' place same
  have steps : i ≡ j [MOD size] := Nat.ModEq.cancel_right_of_coprime coprime product
  have equal := Nat.ModEq.eq_of_lt_of_lt steps (less.trans bound) bound
  omega

/-- Only places of the circle are met. -/
theorem lt_of_mem_walk {place other : Nat} (inside : place < size)
    (met : other ∈ walk (turn size distance) size place) : other < size := by
  obtain ⟨step, -, rfl⟩ := mem_walk.mp met
  rw [turn_iterate inside]
  exact Nat.mod_lt _ (Nat.zero_lt_of_lt inside)

/-- In a lap every place of the circle is met. -/
theorem mem_walk_turn {place other : Nat} (inside : place < size)
    (coprime : size.Coprime distance) (there : other < size) :
    other ∈ walk (turn size distance) size place := by
  have distinct := walk_turn_nodup inside coprime
  have among : walk (turn size distance) size place ⊆ List.range size :=
    fun met member => List.mem_range.mpr (lt_of_mem_walk inside member)
  -- As many different places as there are.
  have all := (List.subperm_of_subset distinct among).perm_of_length_le (by simp)
  exact all.mem_iff.mpr (List.mem_range.mpr there)

end Turn

section Links

/-- A forward link and the backward link for it. -/
def Link (next prev : α → α) (one other : α) : Prop := next one = other ∧ prev other = one

/-- The links in both directions lead round the list. -/
def Linked (next prev : α → α) : List α → Prop
  | [] => True
  | first :: rest => List.IsChain (Link next prev) (first :: rest ++ [first])

variable {first second : α} {rest : List α}

/-- The forward link of the first place leads to the second. -/
theorem Linked.next_eq (linked : Linked next prev (first :: second :: rest)) :
    next first = second :=
  (List.isChain_cons_cons.mp linked).1.1

/-- The ring may be read from its second place on. -/
theorem Linked.rotate (linked : Linked next prev (first :: second :: rest)) :
    Linked next prev (second :: rest ++ [first]) := by
  obtain ⟨link, later⟩ := List.isChain_cons_cons.mp linked
  show List.IsChain (Link next prev) (second :: rest ++ [first] ++ [second])
  refine List.IsChain.append later (List.isChain_singleton _) ?_
  intro last isLast head isHead
  simp only [List.getLast?_append, List.getLast?_singleton, Option.some_or, Option.mem_def,
    Option.some.injEq, List.head?_cons] at isLast isHead
  rw [← isLast, ← isHead]
  exact link

/-- A chain does not depend on the forward link of its last place and the backward link of its first. -/
theorem isChain_congr {next' prev' : α → α} {places : List α}
    (chain : List.IsChain (Link next prev) places)
    (forward : ∀ place ∈ places.dropLast, next' place = next place)
    (backward : ∀ place ∈ places.tail, prev' place = prev place) :
    List.IsChain (Link next' prev') places := by
  induction places with
  | nil => exact List.isChain_nil
  | cons one later ih =>
    cases later with
    | nil => exact List.isChain_singleton _
    | cons other later =>
      obtain ⟨link, chain⟩ := List.isChain_cons_cons.mp chain
      refine List.isChain_cons_cons.mpr ⟨⟨?_, ?_⟩, ?_⟩
      · rw [forward one (by simp), link.1]
      · rw [backward other (by simp), link.2]
      · refine ih chain ?_ ?_
        · intro place member
          exact forward place (by simp [List.dropLast_cons_of_ne_nil, member])
        · intro place member
          exact backward place (List.mem_of_mem_tail member)

/-- Links that agree on the places of the ring lead round it too. -/
theorem Linked.congr {next' : α → α} {places : List α} (linked : Linked next prev places)
    (forward : ∀ place ∈ places, next' place = next place) : Linked next' prev places := by
  cases places with
  | nil => trivial
  | cons first rest =>
    refine isChain_congr linked ?_ fun _ _ => rfl
    intro place member
    rw [List.dropLast_concat] at member
    exact forward place member

/-- The first place leaves the ring when its neighbours are linked to each other. -/
theorem Linked.unlink [DecidableEq α] (linked : Linked next prev (first :: second :: rest))
    (distinct : (first :: second :: rest).Nodup) (several : rest ≠ []) :
    Linked (Function.update next (prev first) (next first))
      (Function.update prev (next first) (prev first)) (second :: rest) := by
  obtain ⟨middle, last, rfl⟩ := List.eq_nil_or_concat rest |>.resolve_left several
  rw [List.concat_eq_append] at *
  have forward : next first = second := linked.next_eq
  -- The chain ends with the link from the last place back to the first.
  obtain ⟨-, chain⟩ := List.isChain_cons_cons.mp linked
  have whole : List.IsChain (Link next prev) ((second :: middle ++ [last]) ++ [first]) := by
    simpa using chain
  have back : prev first = last := by
    have isLast : last ∈ (second :: middle ++ [last]).getLast? := List.getLast?_concat
    exact ((List.isChain_append.mp whole).2.2 last isLast first rfl).2
  rw [forward, back]
  show List.IsChain _ ((second :: middle ++ [last]) ++ [second])
  have inner := (List.isChain_append.mp whole).1
  have distinct : (second :: middle ++ [last]).Nodup := (List.nodup_cons.mp distinct).2
  refine List.IsChain.append (isChain_congr inner ?_ ?_) (List.isChain_singleton _) ?_
  · -- Only the last place got a new forward link.
    intro place member
    refine Function.update_of_ne ?_ _ _
    rintro rfl
    rw [List.dropLast_concat] at member
    exact (List.nodup_append.mp distinct).2.2 place member place (by simp) rfl
  · -- Only the first place that is left got a new backward link.
    intro place member
    refine Function.update_of_ne ?_ _ _
    rintro rfl
    exact (List.nodup_cons.mp distinct).1 (by simpa using member)
  · intro one isLast other isHead
    rw [List.getLast?_concat] at isLast
    have same : last = one := Option.some.inj isLast
    have head : second = other := Option.some.inj isHead
    rw [← same, ← head]
    exact ⟨Function.update_self _ _ _, Function.update_self _ _ _⟩

/-- Links that are inverse to each other lead round every lap. -/
theorem linked_walk {steps : Nat} {place : α} (lap : next^[steps] place = place)
    (inverse : ∀ step < steps, prev (next (next^[step] place)) = next^[step] place) :
    Linked next prev (walk next steps place) := by
  cases steps with
  | zero => trivial
  | succ steps =>
    show List.IsChain _ (walk next (steps + 1) place ++ [place])
    have longer : walk next (steps + 1) place ++ [place] = walk next (steps + 2) place := by
      rw [walk_succ (steps + 1), lap]
    rw [longer]
    clear longer lap
    induction steps generalizing place with
    | zero =>
      exact List.isChain_cons_cons.mpr
        ⟨⟨rfl, inverse 0 (by omega)⟩, List.isChain_singleton _⟩
    | succ steps ih =>
      refine List.isChain_cons_cons.mpr ⟨⟨rfl, inverse 0 (by omega)⟩, ?_⟩
      refine ih fun step less => ?_
      have shifted := inverse (step + 1) (by omega)
      rw [Function.iterate_succ_apply] at shifted
      exact shifted

end Links

end Ring
