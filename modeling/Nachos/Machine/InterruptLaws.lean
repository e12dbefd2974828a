import Nachos.Machine.Interrupt

/-! Interrupts fire once, on time and in the order of their times, as long as no time overflows. -/

namespace Nachos.Interrupt

/-- The serial numbers of all interrupts, those that wait and those whose turn has been. -/
def serials (machine : Interrupt) : List Nat :=
  machine.pending.map (fun element => element.1.serial) ++
    machine.invoked.map fun element => element.1.serial

/-- The invariant of the simulation while no time has left the range of `int`. -/
structure Timely (machine : Interrupt) : Prop where
  sorted : Sorted.InOrder machine.pending
  keys : ∀ element ∈ machine.pending, element.1.due = element.2
  clock : 0 ≤ machine.totalTicks ∧ machine.totalTicks < 2 ^ 31
  bounded : ∀ element ∈ machine.pending, element.2 < 2 ^ 31
  fresh : ∀ serial ∈ machine.serials, serial < machine.created
  once : machine.serials.Nodup
  onTime : ∀ element ∈ machine.invoked, element.1.due ≤ element.2
  passed : ∀ element ∈ machine.invoked, element.2 ≤ machine.totalTicks
  inOrder : machine.invoked.Pairwise fun earlier later => earlier.1.due ≤ later.1.due
  ahead : ∀ past ∈ machine.invoked, ∀ element ∈ machine.pending, past.1.due ≤ element.2

/-- The time between two calls is short enough for an `int`. -/
def Fits (clock : Int) : HandlerCall → Prop
  | .schedule fromNow _ => clock + fromNow < 2 ^ 31
  | .yieldOnReturn => True

/-- No interrupt that waits is due. -/
def Drained (machine : Interrupt) : Prop :=
  ∀ element ∈ machine.pending, machine.totalTicks < element.1.due

section

variable {machine after : Interrupt}

/-- A number in the range of `int` is stored as it is. -/
theorem asInt_of_fits {number : Int} (low : 0 ≤ number) (high : number < 2 ^ 31) :
    asInt number = number := by
  rw [asInt, Int.bmod_def]
  omega

/-- Putting the same elements in a different order. -/
theorem Timely.reorder (timely : Timely machine) {queue : List (PendingInterrupt × Int)}
    (same : queue.Perm machine.pending) (sorted : Sorted.InOrder queue) :
    Timely { machine with pending := queue } := by
  have serials : ({ machine with pending := queue } : Interrupt).serials.Perm machine.serials :=
    (same.map _).append_right _
  exact { timely with
    sorted := sorted
    keys := fun element member => timely.keys element (same.mem_iff.mp member)
    bounded := fun element member => timely.bounded element (same.mem_iff.mp member)
    fresh := fun serial member => timely.fresh serial (serials.mem_iff.mp member)
    once := serials.nodup_iff.mpr timely.once
    ahead := fun past done element member =>
      timely.ahead past done element (same.mem_iff.mp member) }

/-- A handler changes neither the clock nor the level, and makes nothing due. -/
structure Kept (before after : Interrupt) : Prop where
  totalTicks : after.totalTicks = before.totalTicks
  level : after.level = before.level
  invoked : after.invoked = before.invoked
  halted : after.halted = before.halted
  status : after.status = before.status
  due : after.pending.countP (fun element => element.2 ≤ before.totalTicks) =
    before.pending.countP fun element => element.2 ≤ before.totalTicks

/-- What `Schedule` does when its `ASSERT` holds. -/
theorem schedule_eq_ok {fromNow : Int} {type : IntType}
    (done : machine.schedule fromNow type = .ok after) :
    0 < fromNow ∧ after = { machine with
      pending := Sorted.sortedInsert ⟨machine.created, machine.totalTicks + fromNow,
        asInt (machine.totalTicks + fromNow), type⟩ (asInt (machine.totalTicks + fromNow))
        machine.pending
      created := machine.created + 1 } := by
  unfold schedule at done
  split at done
  · rename_i later
    exact ⟨later, (Except.ok.inj done).symm⟩
  · simp at done

/-- Scheduling adds one interrupt that is due later. -/
theorem schedule_timely {fromNow : Int} {type : IntType} (timely : Timely machine)
    (fits : machine.totalTicks + fromNow < 2 ^ 31)
    (done : machine.schedule fromNow type = .ok after) : Timely after ∧ Kept machine after := by
  obtain ⟨later, rfl⟩ := schedule_eq_ok done
  have clock := timely.clock.1
  rw [asInt_of_fits (by omega) fits]
  -- The new interrupt stands somewhere in the list, with a serial number of its own.
  have added := Sorted.sortedInsert_perm (⟨machine.created, machine.totalTicks + fromNow,
    machine.totalTicks + fromNow, type⟩ : PendingInterrupt) (machine.totalTicks + fromNow)
    machine.pending
  have named := (added.map fun element => element.1.serial).append_right
    (machine.invoked.map fun element => element.1.serial)
  have unused : machine.created ∉ machine.serials :=
    fun member => Nat.lt_irrefl _ (timely.fresh _ member)
  refine ⟨⟨timely.sorted.sortedInsert _ _, ?_, timely.clock, ?_, ?_, ?_, timely.onTime,
    timely.passed, timely.inOrder, ?_⟩, rfl, rfl, rfl, rfl, rfl, ?_⟩
  · intro element member
    rcases Sorted.mem_sortedInsert.mp member with rfl | member
    · rfl
    · exact timely.keys element member
  · intro element member
    rcases Sorted.mem_sortedInsert.mp member with rfl | member
    · exact fits
    · exact timely.bounded element member
  · intro serial member
    rcases List.mem_cons.mp (named.mem_iff.mp member) with rfl | member
    · exact Nat.lt_succ_self _
    · exact Nat.lt_succ_of_lt (timely.fresh serial member)
  · exact named.nodup_iff.mpr (List.nodup_cons.mpr ⟨unused, timely.once⟩)
  · -- What was invoked was due by now, and the new interrupt is due later.
    intro past done element member
    rcases Sorted.mem_sortedInsert.mp member with rfl | member
    · have before := timely.onTime past done
      have now := timely.passed past done
      dsimp only
      omega
    · exact timely.ahead past done element member
  · rw [added.countP_eq, List.countP_cons_of_neg (by
      simp only [decide_eq_true_eq]
      omega)]

/-- Nothing happens in between. -/
theorem Kept.refl (machine : Interrupt) : Kept machine machine := ⟨rfl, rfl, rfl, rfl, rfl, rfl⟩

/-- Calls follow one another. -/
theorem Kept.trans {before middle after : Interrupt} (first : Kept before middle)
    (second : Kept middle after) : Kept before after where
  totalTicks := second.totalTicks.trans first.totalTicks
  level := second.level.trans first.level
  invoked := second.invoked.trans first.invoked
  halted := second.halted.trans first.halted
  status := second.status.trans first.status
  due := by rw [← first.due, ← first.totalTicks, second.due, first.totalTicks]

/-- A handler may schedule as many interrupts as it likes. -/
theorem handle_timely {calls : List HandlerCall} :
    ∀ {machine after : Interrupt}, Timely machine →
      (∀ call ∈ calls, Fits machine.totalTicks call) →
      machine.handle calls = .ok after → Timely after ∧ Kept machine after := by
  induction calls with
  | nil =>
    intro machine after timely _ done
    simp only [handle, Except.ok.injEq] at done
    exact done ▸ ⟨timely, .refl machine⟩
  | cons call calls ih =>
    intro machine after timely fit done
    have rest := fun other member => fit other (List.mem_cons_of_mem call member)
    cases call with
    | schedule fromNow type =>
      rw [handle] at done
      obtain ⟨middle, scheduled, done⟩ := Runs.bind_eq_ok.mp done
      obtain ⟨timely', kept⟩ := schedule_timely timely (fit _ List.mem_cons_self) scheduled
      rw [← kept.totalTicks] at rest
      obtain ⟨timely'', kept'⟩ := ih timely' rest done
      exact ⟨timely'', kept.trans kept'⟩
    | yieldOnReturn =>
      rw [handle] at done
      -- Asking for a context switch touches nothing that the invariant speaks about.
      have asked : Timely { machine with yieldOnReturn := true } := { timely with }
      have kept : Kept machine { machine with yieldOnReturn := true } := ⟨rfl, rfl, rfl, rfl, rfl, rfl⟩
      obtain ⟨timely'', kept'⟩ := ih asked rest done
      exact ⟨timely'', kept.trans kept'⟩

/-- The time at which the next handler is invoked. -/
def nextTime (machine : Interrupt) (advanceClock : Bool) : Int :=
  match machine.pending with
  | [] => machine.totalTicks
  | (_, when) :: _ => if advanceClock then max machine.totalTicks when else machine.totalTicks

/-- A clock that is not advanced stands still. -/
@[simp] theorem nextTime_false (machine : Interrupt) :
    machine.nextTime false = machine.totalTicks := by
  unfold nextTime
  split <;> simp

/-- What a check does: nothing, a removal that is undone, or the handler of the first interrupt. -/
inductive Checked (machine : Interrupt) (advanceClock : Bool) (calls : List HandlerCall) :
    Bool → Interrupt → Prop
  | nothing : machine.pending = [] → Checked machine advanceClock calls false machine
  | early {toOccur : PendingInterrupt} {when : Int} {rest : List (PendingInterrupt × Int)} :
      machine.pending = (toOccur, when) :: rest → advanceClock = false →
      machine.totalTicks < when →
      Checked machine advanceClock calls false { machine with
        pending := Sorted.sortedInsert toOccur when rest }
  /-- An idle machine does not go on for its timer alone. -/
  | lastTimer {toOccur : PendingInterrupt} {when : Int} :
      machine.pending = [(toOccur, when)] → machine.status = .idleMode →
      Checked machine advanceClock calls false { machine with
        totalTicks := max machine.totalTicks when }
  | invoked {toOccur : PendingInterrupt} {when : Int} {rest : List (PendingInterrupt × Int)}
      {handled : Interrupt} :
      machine.pending = (toOccur, when) :: rest →
      (advanceClock = false → when ≤ machine.totalTicks) →
      handle { machine with
        pending := rest
        totalTicks := max machine.totalTicks when
        inHandler := true
        status := .systemMode
        invoked := machine.invoked ++ [(toOccur, max machine.totalTicks when)] } calls =
        .ok handled →
      Checked machine advanceClock calls true { handled with
        status := machine.status
        inHandler := false }

/-- Every check is one of these, and runs with interrupts disabled. -/
theorem checked_of_ok {advanceClock fired : Bool} {calls : List HandlerCall}
    (done : machine.checkIfDue advanceClock calls = .ok (fired, after)) :
    machine.level = .intOff ∧ Checked machine advanceClock calls fired after := by
  unfold checkIfDue at done
  split at done
  · rename_i off
    refine ⟨off, ?_⟩
    split at done
    · rename_i listed
      simp only [Except.ok.injEq, Prod.mk.injEq] at done
      obtain ⟨rfl, rfl⟩ := done
      exact .nothing listed
    · rename_i toOccur when rest listed
      split at done
      · rename_i early
        simp only [Bool.and_eq_true, Bool.not_eq_true', decide_eq_true_eq] at early
        simp only [Except.ok.injEq, Prod.mk.injEq] at done
        obtain ⟨rfl, rfl⟩ := done
        exact .early listed early.1 early.2
      · rename_i due
        dsimp only at done
        split at done
        · rename_i idle
          obtain ⟨idle, -, alone⟩ := idle
          rw [List.isEmpty_iff] at alone
          subst alone
          simp only [Except.ok.injEq, Prod.mk.injEq, Sorted.sortedInsert, ← listed] at done
          obtain ⟨rfl, rfl⟩ := done
          exact .lastTimer listed idle
        · obtain ⟨result, invoked, done⟩ := Runs.bind_eq_ok.mp done
          unfold invoke at invoked
          obtain ⟨handled, called, invoked⟩ := Runs.bind_eq_ok.mp invoked
          simp only [Pure.pure, Except.pure, Except.ok.injEq, Prod.mk.injEq] at done invoked
          obtain ⟨rfl, rfl⟩ := done
          subst invoked
          refine .invoked listed (fun still => ?_) called
          subst still
          simpa using due
  · simp at done

/-- The first interrupt of the list may be taken out and counted as invoked. -/
theorem Timely.fired {toOccur : PendingInterrupt} {when : Int}
    {rest : List (PendingInterrupt × Int)} (timely : Timely machine)
    (listed : machine.pending = (toOccur, when) :: rest) :
    Timely { machine with
      pending := rest
      totalTicks := max machine.totalTicks when
      inHandler := true
      status := .systemMode
      invoked := machine.invoked ++ [(toOccur, max machine.totalTicks when)] } := by
  have head : (toOccur, when) ∈ machine.pending := by rw [listed]; exact List.mem_cons_self
  have tail : ∀ element ∈ rest, element ∈ machine.pending := by
    intro element member
    rw [listed]
    exact List.mem_cons_of_mem _ member
  have key : toOccur.due = when := timely.keys _ head
  have bound : when < 2 ^ 31 := timely.bounded _ head
  have clock := timely.clock
  have sorted := timely.sorted
  rw [listed] at sorted
  obtain ⟨least, later⟩ := List.pairwise_cons.mp sorted
  -- The serial number moves from the front of one list to the end of the other.
  have moved : (rest.map (fun element => element.1.serial) ++
      (machine.invoked ++ [(toOccur, max machine.totalTicks when)]).map
        fun element => element.1.serial).Perm machine.serials := by
    rw [serials, listed, List.map_append, List.map_singleton, ← List.append_assoc, List.map_cons,
      List.cons_append]
    exact List.perm_append_singleton _ _
  refine ⟨later, fun element member => timely.keys element (tail element member), ?_,
    fun element member => timely.bounded element (tail element member), ?_,
    moved.nodup_iff.mpr timely.once, ?_, ?_, ?_, ?_⟩
  · dsimp only
    omega
  · intro serial member
    exact timely.fresh serial (moved.mem_iff.mp member)
  · intro element member
    rcases List.mem_append.mp member with member | member
    · exact timely.onTime element member
    · rw [List.mem_singleton.mp member, key]
      exact le_max_right _ _
  · intro element member
    rcases List.mem_append.mp member with member | member
    · exact (timely.passed element member).trans (le_max_left _ _)
    · rw [List.mem_singleton.mp member]
  · -- Everything that was invoked before was due before all that still waited.
    refine List.pairwise_append.mpr ⟨timely.inOrder, List.pairwise_singleton _ _, ?_⟩
    intro past done element member
    rw [List.mem_singleton.mp member, key]
    exact timely.ahead past done _ head
  · intro past done element member
    rcases List.mem_append.mp done with done | done
    · exact timely.ahead past done element (tail element member)
    · rw [List.mem_singleton.mp done, key]
      exact least element member

/-- A check that invokes a handler invokes that of the first interrupt, which is due. -/
theorem checkIfDue_true {advanceClock : Bool} {calls : List HandlerCall} (timely : Timely machine)
    (fit : ∀ call ∈ calls, Fits (machine.nextTime advanceClock) call)
    (done : machine.checkIfDue advanceClock calls = .ok (true, after)) :
    Timely after ∧ after.level = .intOff ∧ after.status = machine.status ∧
      after.halted = machine.halted ∧ after.totalTicks = machine.nextTime advanceClock ∧
      (advanceClock = false →
        after.pending.countP (fun element => element.2 ≤ machine.totalTicks) + 1 =
          machine.pending.countP fun element => element.2 ≤ machine.totalTicks) := by
  obtain ⟨off, checked⟩ := checked_of_ok done
  cases checked with
  | @invoked toOccur when rest handled listed due called =>
    have fired := timely.fired listed
    have time : max machine.totalTicks when = machine.nextTime advanceClock := by
      rw [nextTime, listed]
      cases advanceClock with
      | true => simp
      | false => simp [due rfl]
    rw [time] at called fired
    obtain ⟨timely', kept⟩ := handle_timely fired fit called
    refine ⟨{ timely' with }, kept.level.trans off, rfl, kept.halted, kept.totalTicks, ?_⟩
    rintro rfl
    have counted := kept.due
    rw [nextTime_false] at counted
    rw [counted, listed, List.countP_cons_of_pos (by simpa using due rfl)]

/-- A check that invokes no handler has found nothing due, unless the machine is idle. -/
theorem checkIfDue_false {advanceClock : Bool} {calls : List HandlerCall} (timely : Timely machine)
    (done : machine.checkIfDue advanceClock calls = .ok (false, after)) :
    Timely after ∧ after.level = .intOff ∧ after.status = machine.status ∧
      after.halted = machine.halted ∧
      (advanceClock = false → machine.status ≠ .idleMode →
        Drained after ∧ after.totalTicks = machine.totalTicks) := by
  obtain ⟨off, checked⟩ := checked_of_ok done
  cases checked with
  | nothing listed => exact ⟨timely, off, rfl, rfl, fun _ _ => ⟨by simp [Drained, listed], rfl⟩⟩
  | @early toOccur when rest listed still early =>
    -- The first interrupt is not due, and the others come later.
    have added := Sorted.sortedInsert_perm toOccur when rest
    rw [← listed] at added
    have sorted := timely.sorted
    rw [listed] at sorted
    have back := timely.reorder added
      (Sorted.InOrder.sortedInsert (List.pairwise_cons.mp sorted).2 toOccur when)
    refine ⟨back, off, rfl, rfl, fun _ _ => ⟨fun element member => ?_, rfl⟩⟩
    rw [back.keys element member]
    rcases Sorted.mem_sortedInsert.mp member with rfl | member
    · exact early
    · exact early.trans_le ((List.pairwise_cons.mp sorted).1 element member)
  | @lastTimer toOccur when listed idle =>
    -- Only the timer is left, and it may not keep an idle machine running.
    have clock := timely.clock
    have bound := timely.bounded (toOccur, when) (by rw [listed]; exact List.mem_cons_self)
    refine ⟨{ timely with
      clock := ?_
      passed := fun element member => (timely.passed element member).trans (le_max_left _ _) },
      off, rfl, rfl, fun _ active => absurd idle active⟩
    dsimp only at bound ⊢
    omega

/-- The loop invokes what is due, until nothing is due any more. -/
theorem checkAll_timely {handlers : List (List HandlerCall)} :
    ∀ {machine after : Interrupt}, Timely machine →
      (∀ calls ∈ handlers, ∀ call ∈ calls, Fits machine.totalTicks call) →
      machine.checkAll handlers = .ok after →
      Timely after ∧ after.status = machine.status ∧ after.halted = machine.halted ∧
        (machine.status ≠ .idleMode → Drained after) := by
  -- Each turn of the loop invokes one handler, and the clock stands still.
  induction handlers with
  | nil =>
    intro machine after timely _ done
    rw [checkAll] at done
    obtain ⟨⟨fired, next⟩, checked, done⟩ := Runs.bind_eq_ok.mp done
    cases fired with
    | true => simp at done
    | false =>
      simp only [Pure.pure, Except.pure, Except.ok.injEq] at done
      subst done
      obtain ⟨timely', -, status, halted, drained⟩ := checkIfDue_false timely checked
      exact ⟨timely', status, halted, fun active => (drained rfl active).1⟩
  | cons calls handlers ih =>
    intro machine after timely fit done
    rw [checkAll] at done
    obtain ⟨⟨fired, next⟩, checked, done⟩ := Runs.bind_eq_ok.mp done
    cases fired with
    | false => simp at done
    | true =>
      obtain ⟨timely', -, status, halted, ticks, -⟩ := checkIfDue_true timely
        (by rw [nextTime_false]; exact fit calls List.mem_cons_self) checked
      rw [nextTime_false] at ticks
      obtain ⟨timely'', status', halted', drained⟩ := ih timely' (by
        rw [ticks]
        exact fun other member => fit other (List.mem_cons_of_mem calls member)) done
      exact ⟨timely'', status'.trans status, halted'.trans halted,
        fun active => drained (by rwa [status])⟩

/-- `OneTick` advances the clock and leaves nothing due. -/
theorem oneTick_timely {handlers : List (List HandlerCall)} (timely : Timely machine)
    (active : machine.status ≠ .idleMode) (ticks : machine.totalTicks + machine.tick < 2 ^ 31)
    (fit : ∀ calls ∈ handlers, ∀ call ∈ calls, Fits (machine.totalTicks + machine.tick) call)
    (done : machine.oneTick handlers = .ok after) :
    Timely after ∧ after.status ≠ .idleMode ∧ Drained after := by
  unfold oneTick at done
  have forward : 0 < machine.tick := by
    unfold tick systemTick userTick
    split <;> decide
  have clock := timely.clock
  rw [asInt_of_fits (by omega) ticks] at done
  obtain ⟨middle, checked, done⟩ := Runs.bind_eq_ok.mp done
  -- Nothing that was invoked before is later than the new time.
  have started : Timely { machine with
      totalTicks := machine.totalTicks + machine.tick
      level := .intOff } := { timely with
    clock := ⟨by dsimp only; omega, ticks⟩
    passed := fun element member => (timely.passed element member).trans (by dsimp only; omega) }
  obtain ⟨timely', status, -, drained⟩ := checkAll_timely started fit checked
  dsimp only at done
  split at done
  · simp only [Pure.pure, Except.pure, Except.ok.injEq] at done
    subst done
    exact ⟨{ timely' with }, by simp, drained active⟩
  · simp only [Pure.pure, Except.pure, Except.ok.injEq] at done
    subst done
    exact ⟨{ timely' with }, by rw [← status] at active; exact active, drained active⟩

/-- `Idle` lets the clock jump to the first interrupt, or halts the machine. -/
theorem idle_timely {handlers : List (List HandlerCall)} (timely : Timely machine)
    (fit : ∀ calls ∈ handlers, ∀ call ∈ calls, Fits (machine.nextTime true) call)
    (done : machine.idle handlers = .ok after) :
    Timely after ∧ (after.halted = false → after.status ≠ .idleMode) := by
  have started : Timely { machine with status := .idleMode } := { timely with }
  unfold idle at done
  split at done
  · obtain ⟨⟨fired, next⟩, checked, done⟩ := Runs.bind_eq_ok.mp done
    cases fired with
    | true => simp at done
    | false =>
      simp only [Pure.pure, Except.pure, Except.ok.injEq] at done
      subst done
      exact ⟨{ (checkIfDue_false started checked).1 with }, by simp⟩
  · rename_i calls rest
    obtain ⟨⟨fired, next⟩, checked, done⟩ := Runs.bind_eq_ok.mp done
    cases fired with
    | false => simp at done
    | true =>
      obtain ⟨last, all, done⟩ := Runs.bind_eq_ok.mp done
      simp only [Pure.pure, Except.pure, Except.ok.injEq] at done
      subst done
      obtain ⟨timely', -, -, -, ticks, -⟩ := checkIfDue_true started
        (fit calls List.mem_cons_self) checked
      obtain ⟨timely'', -⟩ := checkAll_timely timely' (by
        rw [ticks]
        exact fun other member => fit other (List.mem_cons_of_mem calls member)) all
      exact ⟨{ timely'' with }, by simp⟩

/-- A handler passes the `ASSERT` of `Schedule` with every call. -/
def Positive : HandlerCall → Prop
  | .schedule fromNow _ => 0 < fromNow
  | .yieldOnReturn => True

/-- A handler whose calls pass the `ASSERT` returns. -/
theorem handle_ok {calls : List HandlerCall} (positive : ∀ call ∈ calls, Positive call) :
    ∀ machine : Interrupt, ∃ after, machine.handle calls = .ok after := by
  induction calls with
  | nil => exact fun machine => ⟨machine, rfl⟩
  | cons call calls ih =>
    intro machine
    have rest := ih fun other member => positive other (List.mem_cons_of_mem call member)
    cases call with
    | schedule fromNow type =>
      have later : 0 < fromNow := positive _ List.mem_cons_self
      rw [handle, schedule, if_pos later, Runs.ok_bind]
      exact rest _
    | yieldOnReturn => exact rest _

/-- A check returns, and it says at once when there is nothing to invoke. -/
theorem checkIfDue_ok {calls : List HandlerCall} (positive : ∀ call ∈ calls, Positive call)
    (off : machine.level = .intOff) :
    (∃ next, machine.checkIfDue false [] = .ok (false, next)) ∨
      ∃ next, machine.checkIfDue false calls = .ok (true, next) := by
  unfold checkIfDue
  rw [if_pos off, if_pos off]
  split
  · exact .inl ⟨_, rfl⟩
  · rename_i toOccur when rest listed
    split
    · exact .inl ⟨_, rfl⟩
    · dsimp only
      split
      · exact .inl ⟨_, rfl⟩
      · right
        obtain ⟨after, handled⟩ := handle_ok positive { machine with
          pending := rest
          totalTicks := max machine.totalTicks when
          inHandler := true
          status := .systemMode
          invoked := machine.invoked ++ [(toOccur, max machine.totalTicks when)] }
        exact ⟨_, Runs.bind_eq_ok.mpr ⟨_, Runs.bind_eq_ok.mpr ⟨after, handled, rfl⟩, rfl⟩⟩

/-- The loop ends, whatever the handlers schedule, because no new interrupt is due at once. -/
theorem checkAll_ends {count : Nat} :
    ∀ {machine : Interrupt} {handlers : Nat → List HandlerCall}, Timely machine →
      machine.level = .intOff →
      (∀ index, ∀ call ∈ handlers index, Positive call ∧ Fits machine.totalTicks call) →
      machine.pending.countP (fun element => element.2 ≤ machine.totalTicks) < count →
      ∃ turns after, machine.checkAll ((List.range turns).map handlers) = .ok after := by
  -- Every turn leaves one interrupt less that is due.
  induction count with
  | zero => exact fun _ _ _ few => absurd few (Nat.not_lt_zero _)
  | succ count ih =>
    intro machine handlers timely off fit few
    rcases checkIfDue_ok (fun call member => (fit 0 call member).1) off with
      ⟨next, checked⟩ | ⟨next, checked⟩
    · exact ⟨0, next, Runs.bind_eq_ok.mpr ⟨_, checked, rfl⟩⟩
    · obtain ⟨timely', off', -, -, ticks, counted⟩ := checkIfDue_true timely
        (by rw [nextTime_false]; exact fun call member => (fit 0 call member).2) checked
      rw [nextTime_false] at ticks
      obtain ⟨turns, after, done⟩ := @ih next (fun index => handlers (index + 1)) timely' off'
        (by rw [ticks]; exact fun index => fit (index + 1))
        (by rw [ticks]; have fewer := counted rfl; omega)
      refine ⟨turns + 1, after, ?_⟩
      rw [List.range_succ_eq_map, List.map_cons, List.map_map]
      exact Runs.bind_eq_ok.mpr ⟨_, checked, done⟩

/-- Does an action make the machine call `OneTick`? -/
def Action.ticks (machine : Interrupt) : Action → Bool
  | .oneTick _ => true
  | .setLevel now _ => now = .intOn && machine.level = .intOff
  | _ => false

/-- What the clock shows when the handlers of an action run. -/
def clockAt (machine : Interrupt) (action : Action) : Int :=
  if action.ticks machine then machine.totalTicks + machine.tick
  else match action with
    | .idle _ => machine.nextTime true
    | _ => machine.totalTicks

/-- The calls that an action makes itself, or that its handlers make. -/
def Action.calls : Action → List HandlerCall
  | .schedule fromNow type => [.schedule fromNow type]
  | .setLevel _ handlers | .oneTick handlers | .idle handlers => handlers.flatten
  | .setStatus _ | .yieldOnReturn => []

/-- The clock stays in the range of `int`. -/
def TicksFit (machine : Interrupt) (action : Action) : Prop := machine.clockAt action < 2 ^ 31

/-- Every time that is asked for is in the range of `int`. -/
def DueTimesFit (machine : Interrupt) (action : Action) : Prop :=
  ∀ call ∈ action.calls, Fits (machine.clockAt action) call

instance (clock : Int) (call : HandlerCall) : Decidable (Fits clock call) :=
  match call with
  | .schedule fromNow _ => inferInstanceAs (Decidable (clock + fromNow < 2 ^ 31))
  | .yieldOnReturn => .isTrue trivial

instance (machine : Interrupt) (action : Action) : Decidable (TicksFit machine action) :=
  inferInstanceAs (Decidable (_ < _))

instance (machine : Interrupt) (action : Action) : Decidable (DueTimesFit machine action) :=
  inferInstanceAs (Decidable (∀ call ∈ action.calls, Fits (machine.clockAt action) call))

/-- Between the calls the machine is not idle, unless it has halted. -/
structure Inv (machine : Interrupt) : Prop where
  timely : Timely machine
  active : machine.halted = false → machine.status ≠ .idleMode

/-- Nothing is pending in the beginning. -/
theorem inv_new : Inv new := by
  refine ⟨⟨.nil, ?_, by decide, ?_, ?_, .nil, ?_, ?_, .nil, ?_⟩, by decide⟩ <;>
    simp [new, serials]

/-- The calls of one handler are among the calls of the action. -/
theorem fits_of_flatten {clock : Int} {handlers : List (List HandlerCall)}
    (fit : ∀ call ∈ handlers.flatten, Fits clock call) :
    ∀ calls ∈ handlers, ∀ call ∈ calls, Fits clock call :=
  fun calls listed call member => fit call (List.mem_flatten.mpr ⟨calls, listed, member⟩)

/-- Every call keeps the invariant, and those that tick leave nothing due. -/
theorem step_inv {action : Action} (inv : Inv machine) (ticks : TicksFit machine action)
    (fit : DueTimesFit machine action) (done : step machine action = .ok after) :
    Inv after ∧ (action.ticks machine = true → Drained after) := by
  unfold step at done
  split at done
  · simp at done
  · rename_i running
    have active := inv.active (by simpa using running)
    unfold TicksFit clockAt at ticks
    unfold DueTimesFit clockAt at fit
    cases action with
    | schedule fromNow type =>
      dsimp only at done
      obtain ⟨timely, kept⟩ := schedule_timely inv.timely (fit _ (List.mem_singleton_self _)) done
      refine ⟨⟨timely, fun _ => ?_⟩, by simp [Action.ticks]⟩
      rw [kept.status]
      exact active
    | setLevel now handlers =>
      dsimp only at done
      unfold setLevel at done
      split at done
      · dsimp only at done
        split at done
        · -- Enabling interrupts that were disabled advances the clock.
          rename_i enables
          have tick : Action.ticks machine (.setLevel now handlers) = true := by
            simpa [Action.ticks] using enables
          rw [if_pos tick] at ticks fit
          have changed : Timely { machine with level := now } := { inv.timely with }
          obtain ⟨timely, status, drained⟩ := oneTick_timely changed active ticks
            (fits_of_flatten fit) done
          exact ⟨⟨timely, fun _ => status⟩, fun _ => drained⟩
        · rename_i quiet
          have tick : Action.ticks machine (.setLevel now handlers) = false := by
            simpa [Action.ticks] using quiet
          split at done
          · simp only [Except.ok.injEq] at done
            subst done
            exact ⟨⟨{ inv.timely with }, fun _ => active⟩, by simp [tick]⟩
          · simp at done
      · simp at done
    | oneTick handlers =>
      obtain ⟨timely, status, drained⟩ := oneTick_timely inv.timely active ticks
        (fits_of_flatten fit) done
      exact ⟨⟨timely, fun _ => status⟩, fun _ => drained⟩
    | idle handlers =>
      obtain ⟨timely, status⟩ := idle_timely inv.timely (fits_of_flatten fit) done
      exact ⟨⟨timely, status⟩, by simp [Action.ticks]⟩
    | setStatus user =>
      simp only [Except.ok.injEq] at done
      subst done
      refine ⟨⟨{ inv.timely with }, fun _ => ?_⟩, by simp [Action.ticks]⟩
      dsimp only
      split <;> simp
    | yieldOnReturn =>
      simp only [Except.ok.injEq] at done
      subst done
      exact ⟨⟨{ inv.timely with }, fun _ => active⟩, by simp [Action.ticks]⟩

end

/-- Handlers are invoked at most once, not too early, and in the order of the times asked for. -/
structure OnSchedule (machine : Interrupt) : Prop where
  once : (machine.invoked.map fun element => element.1.serial).Nodup
  onTime : ∀ element ∈ machine.invoked, element.1.due ≤ element.2
  inOrder : machine.invoked.Pairwise fun earlier later => earlier.1.due ≤ later.1.due

/--
Simulated interrupts fire once, on time and in order, while no time that is asked for overflows.

When the loop of `OneTick` has ended, no interrupt that waits is due.
-/
theorem interrupts_on_schedule {machine : Interrupt}
    (reached : Runs.Reachable step (· = new)
      (fun machine action => TicksFit machine action ∧ DueTimesFit machine action) machine) :
    OnSchedule machine ∧ ∀ action after, action.ticks machine = true → TicksFit machine action →
      DueTimesFit machine action → step machine action = .ok after → Drained after := by
  have inv : Inv machine := by
    refine reached.invariant Inv (fun state (start : state = new) => start ▸ inv_new) ?_
    rintro state action next inv ⟨ticks, fit⟩ done
    exact (step_inv inv ticks fit done).1
  refine ⟨⟨?_, inv.timely.onTime, inv.timely.inOrder⟩, ?_⟩
  · exact (List.nodup_append.mp inv.timely.once).2.1
  · intro action after tick ticks fit done
    exact (step_inv inv ticks fit done).2 tick

/-- A device interrupt, during whose handler the device schedules the next one. -/
def deviceRun : List Action :=
  [.schedule 5 .diskInt, .oneTick [[.schedule 7 .diskInt]], .schedule 3 .consoleReadInt]

/-- After that run the other two interrupts are invoked by the next tick. -/
theorem interrupts_on_schedule_device :
    ∃ machine after, Runs.run step new deviceRun = .ok machine ∧ OnSchedule machine ∧
      step machine (.oneTick [[], []]) = .ok after ∧ Drained after := by
  obtain ⟨machine, ran, seen⟩ := Runs.exists_of_runsTo
    (show Runs.runsTo step new deviceRun (fun machine =>
      decide (TicksFit machine (.oneTick [[], []])) &&
        (step machine (.oneTick [[], []])).isOk) = true by decide)
  simp only [Bool.and_eq_true, decide_eq_true_eq] at seen
  obtain ⟨ticks, ends⟩ := seen
  have guarded : Runs.Guarded step
      (fun machine action => TicksFit machine action ∧ DueTimesFit machine action) new deviceRun := by
    decide
  obtain ⟨scheduled, drained⟩ := interrupts_on_schedule (.extend (.start rfl) guarded ran)
  cases done : step machine (.oneTick [[], []]) with
  | error fault => simp [done, Except.isOk, Except.toBool] at ends
  | ok after =>
    exact ⟨machine, after, ran, scheduled, done, drained _ after rfl ticks
      (by simp [DueTimesFit, Action.calls]) done⟩

/-- The clock stands shortly before its limit when an interrupt is scheduled beyond it. -/
def overflowRun : List Action :=
  [.schedule 2147483628 .diskInt, .idle [[]], .schedule 100 .diskInt, .oneTick [[]]]

/-- The sum wraps around, and the handler is invoked by the next tick instead of later. -/
theorem not_on_schedule_overflow :
    ¬ ∀ machine, Runs.Reachable step (· = new) TicksFit machine → OnSchedule machine := by
  intro all
  obtain ⟨machine, ran, seen⟩ := Runs.exists_of_runsTo
    (show Runs.runsTo step new overflowRun (fun machine =>
      machine.invoked.any fun element => element.2 < element.1.due) = true by decide)
  have guarded : Runs.Guarded step TicksFit new overflowRun := by decide
  obtain ⟨element, member, early⟩ := List.any_eq_true.mp seen
  have late := (all machine (.extend (.start rfl) guarded ran)).onTime element member
  simp only [decide_eq_true_eq] at early
  omega

end Nachos.Interrupt
