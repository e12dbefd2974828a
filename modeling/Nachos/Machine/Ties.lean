import Nachos.Machine.InterruptLaws

/-! What a check that comes too early does to interrupts that wait for the same tick. -/

namespace Nachos.Interrupt

/-- The calls on the list of pending interrupts, and everything that happens in between. -/
inductive Call where
  | schedule (fromNow : Int) (type : IntType)
  | checkIfDue (advanceClock : Bool) (calls : List HandlerCall)
  /-- The clock, the level and the modes change in any way. -/
  | elsewhere (other : Interrupt)

/-- One call. -/
def call (machine : Interrupt) : Call → Except Fault Interrupt
  | .schedule fromNow type => machine.schedule fromNow type
  | .checkIfDue advanceClock calls => do
    let (_, machine) ← machine.checkIfDue advanceClock calls
    return machine
  | .elsewhere other => .ok { other with
      pending := machine.pending
      created := machine.created
      invoked := machine.invoked }

/-- The first interrupt is not due yet, and the next one has the same time. -/
def tieAhead (machine : Interrupt) : Bool :=
  match machine.pending with
  | first :: second :: _ => machine.totalTicks < first.2 && first.2 = second.2
  | _ => false

/-- A check that may come too early finds no tie at the front of the list. -/
def NoTie (machine : Interrupt) : Call → Prop
  | .checkIfDue advanceClock _ => advanceClock = false → machine.tieAhead = false
  | .schedule _ _ | .elsewhere _ => True

/-- Interrupts for one tick fire in the order in which they were scheduled. -/
def FiresInOrder (machine : Interrupt) : Prop :=
  machine.invoked.Pairwise fun earlier later =>
    earlier.1.when = later.1.when → earlier.1.serial < later.1.serial

instance (machine : Interrupt) : Decidable machine.FiresInOrder :=
  inferInstanceAs (Decidable (List.Pairwise _ _))

section

variable {machine after : Interrupt}

/-- What scheduling keeps, and asking for a context switch does not touch, a handler keeps. -/
theorem handle_keeps {kept : Interrupt → Prop}
    (schedules : ∀ {machine after fromNow type}, kept machine →
      machine.schedule fromNow type = .ok after → kept after)
    (asks : ∀ {machine : Interrupt}, kept machine → kept { machine with yieldOnReturn := true })
    {calls : List HandlerCall} :
    ∀ {machine after : Interrupt}, kept machine → machine.handle calls = .ok after →
      kept after := by
  -- A handler is a list of calls, and each one keeps what its predecessors kept.
  induction calls with
  | nil =>
    intro machine after holds done
    simp only [handle, Except.ok.injEq] at done
    exact done ▸ holds
  | cons call calls ih =>
    intro machine after holds done
    cases call with
    | schedule fromNow type =>
      rw [handle] at done
      obtain ⟨middle, scheduled, done⟩ := Runs.bind_eq_ok.mp done
      exact ih (schedules holds scheduled) done
    | yieldOnReturn => exact ih (asks holds) done

/-- The list is sorted, and its interrupts have serial numbers of their own. -/
structure Numbered (machine : Interrupt) : Prop where
  sorted : Sorted.InOrder machine.pending
  keys : ∀ element ∈ machine.pending, element.1.when = element.2
  fresh : ∀ serial ∈ machine.serials, serial < machine.created
  once : (machine.pending.map fun element => element.1.serial).Nodup

/-- A new interrupt gets a new number and its place in the list. -/
theorem Numbered.schedule {fromNow : Int} {type : IntType} (numbered : Numbered machine)
    (done : machine.schedule fromNow type = .ok after) : Numbered after := by
  obtain ⟨-, rfl⟩ := schedule_eq_ok done
  have added := Sorted.sortedInsert_perm (⟨machine.created, machine.totalTicks + fromNow,
    asInt (machine.totalTicks + fromNow), type⟩ : PendingInterrupt)
    (asInt (machine.totalTicks + fromNow)) machine.pending
  have named := added.map fun element => element.1.serial
  -- The insertion adds one element to the list, in order.
  refine ⟨numbered.sorted.sortedInsert _ _, ?_, ?_, ?_⟩
  · intro element member
    rcases Sorted.mem_sortedInsert.mp member with rfl | member
    · rfl
    · exact numbered.keys element member
  · intro serial member
    rcases List.mem_cons.mp ((named.append_right _).mem_iff.mp member) with rfl | member
    · exact Nat.lt_succ_self _
    · exact Nat.lt_succ_of_lt (numbered.fresh serial member)
  · -- All numbers in use are smaller than the new one.
    rw [named.nodup_iff, List.map_cons, List.nodup_cons]
    refine ⟨fun member => ?_, numbered.once⟩
    exact Nat.lt_irrefl _ (numbered.fresh _ (List.mem_append_left _ member))

/-- The first interrupt goes from the list to those that were invoked. -/
theorem Numbered.fired {toOccur : PendingInterrupt} {when : Int}
    {rest : List (PendingInterrupt × Int)} (numbered : Numbered machine)
    (listed : machine.pending = (toOccur, when) :: rest) :
    Numbered { machine with
      pending := rest
      totalTicks := max machine.totalTicks when
      inHandler := true
      status := .systemMode
      invoked := machine.invoked ++ [(toOccur, max machine.totalTicks when)] } := by
  obtain ⟨sorted, keys, fresh, once⟩ := numbered
  rw [listed] at sorted once keys
  rw [serials, listed] at fresh
  refine ⟨(List.pairwise_cons.mp sorted).2,
    fun element member => keys element (List.mem_cons_of_mem _ member), ?_,
    (List.nodup_cons.mp once).2⟩
  -- The serial number moves from the list to the history.
  intro serial member
  apply fresh
  simp only [serials, List.map_append, List.map_cons, List.map_nil, List.mem_append,
    List.mem_cons, List.not_mem_nil, or_false] at member ⊢
  tauto

/-- Every call keeps the list sorted and numbered. -/
theorem Numbered.call {action : Call} (numbered : Numbered machine)
    (done : machine.call action = .ok after) : Numbered after := by
  cases action with
  | schedule fromNow type => exact numbered.schedule done
  | elsewhere other =>
    simp only [Interrupt.call, Except.ok.injEq] at done
    -- The invariant speaks about the list and its history only.
    exact done ▸ { numbered with }
  | checkIfDue advanceClock calls =>
    obtain ⟨⟨fired, next⟩, checked, done⟩ := Runs.bind_eq_ok.mp done
    simp only [Pure.pure, Except.pure, Except.ok.injEq] at done
    subst done
    cases (checked_of_ok checked).2 with
    | nothing _ => exact numbered
    | @early toOccur when rest listed _ _ =>
      -- The list holds what it held before.
      have same := Sorted.sortedInsert_perm toOccur when rest
      rw [← listed] at same
      have named := same.map fun element => element.1.serial
      have sorted := numbered.sorted
      rw [listed] at sorted
      exact ⟨Sorted.InOrder.sortedInsert (List.pairwise_cons.mp sorted).2 toOccur when,
        fun element member => numbered.keys element (same.mem_iff.mp member),
        fun serial member => numbered.fresh serial ((named.append_right _).mem_iff.mp member),
        named.nodup_iff.mpr numbered.once⟩
    | lastTimer _ _ => exact { numbered with }
    | invoked listed _ called =>
      -- The interrupt is taken out first, and then its handler may schedule others.
      exact { handle_keeps (fun holds => holds.schedule) (fun holds => { holds with })
        (numbered.fired listed) called with }

/-- In the beginning the list is empty. -/
theorem numbered_new : Numbered new := by
  refine ⟨.nil, ?_, ?_, .nil⟩ <;> simp [new, serials]

/-- The list of pending interrupts is sorted and numbered whatever happens. -/
theorem numbered_of_reachable {guard : Interrupt → Call → Prop}
    (reached : Runs.Reachable call (· = new) guard machine) : Numbered machine := by
  refine reached.invariant Numbered (fun state (start : state = new) => ?_)
    fun _ _ _ numbered _ done => numbered.call done
  exact start ▸ numbered_new

/-- A check that comes too early leaves the list alone, unless it puts its head behind a tie. -/
theorem Numbered.unchanged_iff {calls : List HandlerCall} (numbered : Numbered machine)
    (done : machine.checkIfDue false calls = .ok (false, after)) :
    after.pending = machine.pending ↔ machine.tieAhead = false := by
  cases (checked_of_ok done).2 with
  | nothing listed => simp [tieAhead, listed]
  | lastTimer listed _ => simp [tieAhead, listed]
  | @early toOccur when rest listed _ early =>
    cases rest with
    -- Into an empty list the interrupt goes back where it was.
    | nil => simp [tieAhead, listed, Sorted.sortedInsert]
    | cons second rest =>
      have sorted := numbered.sorted
      have once := numbered.once
      rw [listed] at sorted once
      have least : when ≤ second.2 := (List.pairwise_cons.mp sorted).1 second List.mem_cons_self
      simp only [tieAhead, listed, early, decide_true, Bool.true_and, decide_eq_false_iff_not]
      rcases lt_or_eq_of_le least with later | tied
      · -- Alone with its time, the head comes back to the front.
        rw [Sorted.sortedInsert_of_lt later]
        exact iff_of_true rfl later.ne
      · -- The next interrupt moves to the front, and it is another one.
        rw [Sorted.sortedInsert_of_le tied.ge]
        refine iff_of_false (fun same => ?_) (not_not_intro tied)
        obtain ⟨same, -⟩ := List.cons.inj same
        simp [same] at once

/-- Interrupts with the same time stand in the list, and have fired, as they were scheduled. -/
structure Ordered (machine : Interrupt) : Prop where
  numbered : Numbered machine
  ties : machine.pending.Pairwise fun earlier later =>
    earlier.2 = later.2 → earlier.1.serial < later.1.serial
  behind : ∀ past ∈ machine.invoked, ∀ element ∈ machine.pending,
    past.1.when = element.2 → past.1.serial < element.1.serial
  inOrder : FiresInOrder machine

/-- A new interrupt is put behind all that have the same time. -/
theorem Ordered.schedule {fromNow : Int} {type : IntType} (ordered : Ordered machine)
    (done : machine.schedule fromNow type = .ok after) : Ordered after := by
  have numbered := ordered.numbered.schedule done
  obtain ⟨-, rfl⟩ := schedule_eq_ok done
  have older := ordered.numbered.fresh
  refine ⟨numbered, ?_, ?_, ordered.inOrder⟩
  · -- Those in front have smaller numbers, and those behind have later times.
    refine ordered.numbered.sorted.pairwise_sortedInsert ordered.ties ?_ ?_
    · intro other member _ _
      exact older _ (List.mem_append_left _ (List.mem_map_of_mem member))
    · intro other _ smaller same
      exact absurd same smaller.ne
  · intro past gone element member same
    rcases Sorted.mem_sortedInsert.mp member with rfl | member
    · exact older _ (List.mem_append_right _ (List.mem_map_of_mem gone))
    · exact ordered.behind past gone element member same

/-- The first interrupt fires before all that have its time and behind all that had it. -/
theorem Ordered.fired {toOccur : PendingInterrupt} {when : Int}
    {rest : List (PendingInterrupt × Int)} (ordered : Ordered machine)
    (listed : machine.pending = (toOccur, when) :: rest) :
    Ordered { machine with
      pending := rest
      totalTicks := max machine.totalTicks when
      inHandler := true
      status := .systemMode
      invoked := machine.invoked ++ [(toOccur, max machine.totalTicks when)] } := by
  obtain ⟨numbered, ties, behind, inOrder⟩ := ordered
  have head : toOccur.when = when :=
    numbered.keys (toOccur, when) (by rw [listed]; exact List.mem_cons_self)
  rw [listed] at ties behind
  obtain ⟨first, ties⟩ := List.pairwise_cons.mp ties
  refine ⟨numbered.fired listed, ties, ?_, ?_⟩
  · intro past gone element member same
    rcases List.mem_append.mp gone with gone | gone
    · exact behind past gone element (List.mem_cons_of_mem _ member) same
    · rw [List.mem_singleton.mp gone] at same ⊢
      exact first element member (head.symm.trans same)
  · -- What fired before was scheduled before, if it had the same time.
    refine List.pairwise_append.mpr ⟨inOrder, List.pairwise_singleton _ _, ?_⟩
    intro past gone element member same
    rw [List.mem_singleton.mp member] at same ⊢
    exact behind past gone (toOccur, when) List.mem_cons_self (same.trans head)

/-- Every call keeps the order, if no check finds a tie too early. -/
theorem Ordered.call {action : Call} (ordered : Ordered machine) (apart : NoTie machine action)
    (done : machine.call action = .ok after) : Ordered after := by
  have numbered := ordered.numbered.call done
  cases action with
  | schedule fromNow type => exact ordered.schedule done
  | elsewhere other =>
    simp only [Interrupt.call, Except.ok.injEq] at done
    subst done
    exact { ordered with numbered := numbered }
  | checkIfDue advanceClock calls =>
    obtain ⟨⟨fired, next⟩, checked, done⟩ := Runs.bind_eq_ok.mp done
    simp only [Pure.pure, Except.pure, Except.ok.injEq] at done
    subst done
    cases (checked_of_ok checked).2 with
    | nothing _ => exact ordered
    | lastTimer _ _ => exact { ordered with numbered := numbered }
    | @early toOccur when rest listed still early =>
      -- Without a tie the check leaves the list as it was.
      subst still
      have same := (ordered.numbered.unchanged_iff checked).mpr (apart rfl)
      exact ⟨numbered, same ▸ ordered.ties, same ▸ ordered.behind, ordered.inOrder⟩
    | invoked listed _ called =>
      exact { handle_keeps (fun holds => holds.schedule) (fun holds => { holds with
        numbered := { holds.numbered with } }) (ordered.fired listed) called with
          numbered := numbered }

/-- In the beginning nothing is pending. -/
theorem ordered_new : Ordered new := by
  exact ⟨numbered_new, .nil, by simp [new], .nil⟩

/-- What a machine reaches by the calls on the list, whatever happens in between. -/
abbrev Reached : Interrupt → Prop := Runs.Reachable call (· = new) fun _ _ => True

/-- Everything but the list and its history may change. -/
theorem Reached.elsewhere (reached : Reached machine) (pending : after.pending = machine.pending)
    (created : after.created = machine.created) (invoked : after.invoked = machine.invoked) :
    Reached after := by
  have changed : machine.call (.elsewhere after) = .ok after := by
    rw [call, ← pending, ← created, ← invoked]
  exact .next reached trivial changed

/-- A check is one of the calls. -/
theorem Reached.checkIfDue {advanceClock fired : Bool} {calls : List HandlerCall}
    (reached : Reached machine)
    (done : machine.checkIfDue advanceClock calls = .ok (fired, after)) : Reached after := by
  have called : machine.call (.checkIfDue advanceClock calls) = .ok after := by
    rw [call, done]
    rfl
  exact .next reached trivial called

/-- The loop makes one check after the other. -/
theorem Reached.checkAll {handlers : List (List HandlerCall)} :
    ∀ {machine after : Interrupt}, Reached machine → machine.checkAll handlers = .ok after →
      Reached after := by
  induction handlers with
  | nil =>
    intro machine after reached done
    rw [Interrupt.checkAll] at done
    obtain ⟨⟨fired, next⟩, checked, done⟩ := Runs.bind_eq_ok.mp done
    cases fired with
    | true => simp at done
    | false =>
      simp only [Pure.pure, Except.pure, Except.ok.injEq] at done
      exact done ▸ reached.checkIfDue checked
  | cons calls handlers ih =>
    intro machine after reached done
    rw [Interrupt.checkAll] at done
    obtain ⟨⟨fired, next⟩, checked, done⟩ := Runs.bind_eq_ok.mp done
    cases fired with
    | true => exact ih (reached.checkIfDue checked) done
    | false => simp at done

/-- `OneTick` changes the clock and the level, and then runs the loop. -/
theorem Reached.oneTick {handlers : List (List HandlerCall)} (reached : Reached machine)
    (done : machine.oneTick handlers = .ok after) : Reached after := by
  unfold Interrupt.oneTick at done
  obtain ⟨middle, checked, done⟩ := Runs.bind_eq_ok.mp done
  have started : Reached { machine with
      totalTicks := asInt (machine.totalTicks + machine.tick)
      level := .intOff } := reached.elsewhere rfl rfl rfl
  have ticked := Reached.checkAll started checked
  dsimp only at done
  -- A context switch at the end changes the mode of the machine.
  split at done
  · simp only [Pure.pure, Except.pure, Except.ok.injEq] at done
    exact done ▸ ticked.elsewhere rfl rfl rfl
  · simp only [Pure.pure, Except.pure, Except.ok.injEq] at done
    exact done ▸ ticked.elsewhere rfl rfl rfl

/-- Everything the simulation does to the list it does by these calls. -/
theorem Reached.step {action : Action} (reached : Reached machine)
    (done : machine.step action = .ok after) : Reached after := by
  unfold Interrupt.step at done
  split at done
  · simp at done
  · cases action with
    | schedule fromNow type =>
      have called : machine.call (.schedule fromNow type) = .ok after := done
      exact .next reached trivial called
    | oneTick handlers => exact reached.oneTick done
    | setStatus user =>
      -- Entering or leaving the kernel is nothing to the list.
      simp only [Except.ok.injEq] at done
      exact done ▸ reached.elsewhere rfl rfl rfl
    | yieldOnReturn =>
      simp only [Except.ok.injEq] at done
      exact done ▸ reached.elsewhere rfl rfl rfl
    | setLevel now handlers =>
      dsimp only at done
      unfold setLevel at done
      split at done
      · dsimp only at done
        have changed : Reached { machine with level := now } := reached.elsewhere rfl rfl rfl
        split at done
        · -- Enabling interrupts ticks.
          exact changed.oneTick done
        · split at done
          · simp only [Except.ok.injEq] at done
            exact done ▸ changed
          · simp at done
      · simp at done
    | idle handlers =>
      dsimp only at done
      unfold idle at done
      have idle : Reached { machine with status := .idleMode } := reached.elsewhere rfl rfl rfl
      split at done
      · obtain ⟨⟨fired, next⟩, checked, done⟩ := Runs.bind_eq_ok.mp done
        cases fired with
        | true => simp at done
        | false =>
          simp only [Pure.pure, Except.pure, Except.ok.injEq] at done
          exact done ▸ (idle.checkIfDue checked).elsewhere rfl rfl rfl
      · obtain ⟨⟨fired, next⟩, checked, done⟩ := Runs.bind_eq_ok.mp done
        cases fired with
        | false => simp at done
        | true =>
          obtain ⟨last, all, done⟩ := Runs.bind_eq_ok.mp done
          simp only [Pure.pure, Except.pure, Except.ok.injEq] at done
          exact done ▸ (Reached.checkAll (idle.checkIfDue checked) all).elsewhere rfl rfl rfl

/-- So every machine of the simulation is reached by them. -/
theorem reached_of_reachable {guard : Interrupt → Action → Prop}
    (reached : Runs.Reachable step (· = new) guard machine) : Reached machine :=
  reached.invariant Reached (fun _ start => .start start) fun _ _ _ reached _ done =>
    reached.step done

end

/--
A check that returns without an interrupt leaves the list alone, unless a tie waits at its front.

Where no check finds one, interrupts that are scheduled for one tick fire in that order.
-/
theorem unchanged_iff_no_tie (machine : Interrupt) :
    (Reached machine → ∀ totalTicks calls after,
      { machine with totalTicks := totalTicks }.checkIfDue false calls = .ok (false, after) →
      (after.pending = machine.pending ↔
        { machine with totalTicks := totalTicks }.tieAhead = false)) ∧
    (Runs.Reachable call (· = new) NoTie machine → FiresInOrder machine) := by
  refine ⟨fun reached totalTicks calls after done => ?_, fun reached => ?_⟩
  · -- The clock may show any time, since the invariant does not speak about it.
    have numbered : Numbered { machine with totalTicks := totalTicks } :=
      { numbered_of_reachable reached with }
    exact numbered.unchanged_iff done
  · have ordered : Ordered machine := by
      -- Along such a run every check keeps the order.
      refine reached.invariant Ordered (fun state (start : state = new) => start ▸ ordered_new) ?_
      exact fun _ _ _ ordered apart done => ordered.call apart done
    exact ordered.inOrder

/-- Two interrupts with different times, checked too early, and then when both are due. -/
def apartRun : List Call :=
  [.schedule 15 .diskInt, .schedule 16 .consoleReadInt, .elsewhere { new with totalTicks := 10 },
    .checkIfDue false [], .elsewhere { new with totalTicks := 20 }, .checkIfDue false [],
    .checkIfDue false []]

instance (machine : Interrupt) (action : Call) : Decidable (NoTie machine action) :=
  match action with
  | .checkIfDue advanceClock _ =>
    inferInstanceAs (Decidable (advanceClock = false → machine.tieAhead = false))
  | .schedule _ _ | .elsewhere _ => .isTrue trivial

/-- The early check changes nothing, and both interrupts fire in their order. -/
theorem unchanged_iff_no_tie_apart :
    (∃ machine after, Runs.run call new (apartRun.take 2) = .ok machine ∧
      { machine with totalTicks := 10 }.checkIfDue false [] = .ok (false, after) ∧
      after.pending = machine.pending) ∧
    ∃ machine, Runs.run call new apartRun = .ok machine ∧ machine.invoked.length = 2 ∧
      FiresInOrder machine := by
  constructor
  · obtain ⟨machine, ran, seen⟩ := Runs.exists_of_runsTo
      (show Runs.runsTo call new (apartRun.take 2) (fun machine =>
        decide ({ machine with totalTicks := 10 }.tieAhead = false) &&
          match { machine with totalTicks := 10 }.checkIfDue false [] with
          | .ok (fired, _) => !fired
          | .error _ => false) = true by decide)
    simp only [Bool.and_eq_true, decide_eq_true_eq] at seen
    obtain ⟨apart, ends⟩ := seen
    -- The list that was scheduled is reached, and at time 10 nothing is due.
    have reached : Reached machine :=
      .extend (.start rfl) (Runs.guarded_of_forall (fun _ _ _ => trivial) new) ran
    cases done : { machine with totalTicks := 10 }.checkIfDue false [] with
    | error fault => simp [done] at ends
    | ok result =>
      obtain ⟨fired, after⟩ := result
      simp only [done, Bool.not_eq_true'] at ends
      subst ends
      exact ⟨machine, after, ran, done,
        ((unchanged_iff_no_tie machine).1 reached 10 [] after done).mpr apart⟩
  · obtain ⟨machine, ran, two⟩ := Runs.exists_of_runsTo
      (show Runs.runsTo call new apartRun (fun machine =>
        decide (machine.invoked.length = 2)) = true by decide)
    have guarded : Runs.Guarded call NoTie new apartRun := by decide
    exact ⟨machine, ran, of_decide_eq_true two,
      (unchanged_iff_no_tie machine).2 (.extend (.start rfl) guarded ran)⟩

/-- Two interrupts for tick 15 are scheduled, and the clock shows 10 and then 20. -/
def tiedRun : List Action :=
  [.schedule 15 .diskInt, .schedule 15 .consoleReadInt, .oneTick [], .oneTick [[], []]]

/-- The check at tick 10 exchanges the two, and at tick 20 the second one fires first. -/
theorem not_unchanged_tied :
    (¬ ∀ machine, Reached machine → ∀ totalTicks calls after,
      { machine with totalTicks := totalTicks }.checkIfDue false calls = .ok (false, after) →
      after.pending = machine.pending) ∧
    ¬ ∀ machine, Reached machine → FiresInOrder machine := by
  constructor
  · intro unchanged
    obtain ⟨machine, ran, seen⟩ := Runs.exists_of_runsTo
      (show Runs.runsTo step new (tiedRun.take 2) (fun machine =>
        match { machine with totalTicks := 10 }.checkIfDue false [] with
        | .ok (fired, after) => !fired && decide (after.pending ≠ machine.pending)
        | .error _ => false) = true by decide)
    have reached := reached_of_reachable
      (.extend (.start rfl) (Runs.guarded_of_forall (fun _ _ _ => trivial) new) ran)
    split at seen
    · rename_i fired after done
      simp only [Bool.and_eq_true, Bool.not_eq_true', decide_eq_true_eq] at seen
      obtain ⟨rfl, moved⟩ := seen
      exact moved (unchanged machine reached 10 [] after done)
    · cases seen
  · intro ordered
    obtain ⟨machine, ran, seen⟩ := Runs.exists_of_runsTo
      (show Runs.runsTo step new tiedRun (fun machine =>
        decide (¬ FiresInOrder machine)) = true by decide)
    have reached := reached_of_reachable
      (.extend (.start rfl) (Runs.guarded_of_forall (fun _ _ _ => trivial) new) ran)
    exact of_decide_eq_true seen (ordered machine reached)

end Nachos.Interrupt
