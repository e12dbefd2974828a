import Nachos.Lib.Runs
import Mathlib.Algebra.Ring.Int.Defs
import Mathlib.Data.Finset.Card
import Mathlib.Data.Set.Basic
import Mathlib.Data.List.Nodup

/-! A gate with a number of units and a queue, at which woken threads compete anew. -/

universe u

/-- The units that are free, the sleeping threads, and those woken that have not yet gone on. -/
structure Gate (τ : Type u) where
  /-- What is left of a number when it is stored as the units. -/
  store : Int → Int
  units : Int
  queue : List τ
  woken : Set τ

namespace Gate

variable {τ : Type u} {gate : Gate τ}

/-- What can happen at a gate. -/
inductive Event (τ : Type u) where
  /-- A thread takes one unit. -/
  | passed (thread : τ)
  /-- A thread, new or woken, goes to sleep at the end of the queue. -/
  | slept (thread : τ)
  /-- One unit is added, and the first sleeper is woken. -/
  | raised

/-- A gate at which nobody has been. -/
def fresh (store : Int → Int) (units : Int) : Gate τ := ⟨store, units, [], ∅⟩

/-- One more unit, as far as it can be stored. -/
def more (gate : Gate τ) : Int := gate.store (gate.units + 1)

/-- One unit less. -/
def less (gate : Gate τ) : Int := gate.store (gate.units - 1)

/-- The gate after an event. -/
def apply (gate : Gate τ) : Event τ → Gate τ
  | .passed thread => { gate with units := gate.less, woken := gate.woken \ {thread} }
  | .slept thread => { gate with
      queue := gate.queue ++ [thread]
      woken := gate.woken \ {thread} }
  | .raised => { gate with
      units := gate.more
      queue := gate.queue.tail
      woken := gate.woken ∪ { thread | thread ∈ gate.queue.head? } }

/-- A thread that is awake passes while there are units, and sleeps while there are none. -/
def allows (gate : Gate τ) : Event τ → Prop
  | .passed thread => gate.units ≠ 0 ∧ thread ∉ gate.queue
  | .slept thread => gate.units = 0 ∧ thread ∉ gate.queue
  | .raised => True

/-- Nobody sleeps beside units that no woken thread is on its way to take. -/
structure Sound (gate : Gate τ) : Prop where
  nonneg : 0 ≤ gate.units
  /-- The units have been stored, and so can be all smaller numbers. -/
  stored : ∀ count, 0 ≤ count → count ≤ gate.units → gate.store count = count
  once : gate.queue.Nodup
  apart : ∀ thread ∈ gate.queue, thread ∉ gate.woken
  covered : gate.queue ≠ [] →
    ∃ threads : Finset τ, ↑threads ⊆ gate.woken ∧ gate.units ≤ threads.card

/-- Another unit leaves at most one more, and never less than none. -/
structure Fits (gate : Gate τ) : Prop where
  nonneg : 0 ≤ gate.more
  atMost : gate.more ≤ gate.units + 1
  stored : ∀ count, 0 ≤ count → count ≤ gate.more → gate.store count = count

/-- A gate opens sound. -/
theorem sound_fresh {store : Int → Int} {units : Int} (nonneg : 0 ≤ units)
    (stored : ∀ count, 0 ≤ count → count ≤ units → store count = count) :
    (fresh store units : Gate τ).Sound :=
  ⟨nonneg, stored, List.nodup_nil, by simp [fresh], by simp [fresh]⟩

/-- A unit that is there can be taken, and one less is left. -/
theorem Sound.less (sound : gate.Sound) (some : gate.units ≠ 0) : gate.less = gate.units - 1 := by
  have nonneg := sound.nonneg
  exact sound.stored (gate.units - 1) (by omega) (by omega)

/-- Where one number more can be stored, another unit fits, and is added. -/
theorem Sound.more (sound : gate.Sound) (next : gate.store (gate.units + 1) = gate.units + 1) :
    gate.Fits ∧ gate.more = gate.units + 1 := by
  have nonneg := sound.nonneg
  have more : gate.more = gate.units + 1 := next
  refine ⟨⟨by omega, by omega, fun count first last => ?_⟩, more⟩
  by_cases top : count = gate.units + 1
  · rw [top, next]
  · exact sound.stored count first (by omega)

/-- Where units are stored up to a bound, another one always fits. -/
theorem Sound.fits (sound : gate.Sound) {top : Int} (bounded : gate.store = min top)
    (room : 0 ≤ top) : gate.Fits := by
  have nonneg := sound.nonneg
  have more : gate.more = min top (gate.units + 1) := by rw [Gate.more, bounded]
  refine ⟨by omega, by omega, fun count first last => ?_⟩
  rw [bounded]
  omega

/-- Every event that may happen leaves the gate sound. -/
theorem Sound.apply (sound : gate.Sound) {event : Event τ} (allowed : gate.allows event)
    (fits : event = .raised → gate.Fits) : (gate.apply event).Sound := by
  classical
  cases event with
  | passed thread =>
    have nonneg := sound.nonneg
    have some := allowed.1
    have less := sound.less some
    refine ⟨?_, ?_, sound.once, ?_, ?_⟩
    · simp only [Gate.apply]
      omega
    · intro count first last
      simp only [Gate.apply] at last
      exact sound.stored count first (by omega)
    · exact fun other listed => fun woken => sound.apart other listed woken.1
    · intro waiters
      obtain ⟨threads, subset, enough⟩ := sound.covered waiters
      -- The one that passes need not be counted, for it took a unit with it.
      refine ⟨threads.erase thread, ?_, ?_⟩
      · intro other member
        obtain ⟨differ, old⟩ := Finset.mem_erase.mp (Finset.mem_coe.mp member)
        exact ⟨subset (Finset.mem_coe.mpr old), differ⟩
      · have few := Finset.pred_card_le_card_erase (s := threads) (a := thread)
        simp only [Gate.apply]
        omega
  | slept thread =>
    obtain ⟨none, absent⟩ := allowed
    refine ⟨sound.nonneg, sound.stored, ?_, ?_, ?_⟩
    · exact sound.once.append (List.nodup_singleton thread) (by simpa using absent)
    · intro other listed woken
      rcases List.mem_append.mp listed with old | new
      · exact sound.apart other old woken.1
      · exact woken.2 (by simpa using new)
    · -- A thread only sleeps when there is nothing to take.
      exact fun _ => ⟨∅, by simp, by simp [Gate.apply, none]⟩
  | raised =>
    obtain ⟨nonneg, atMost, stored⟩ := fits rfl
    cases shape : gate.queue with
    | nil =>
      refine ⟨nonneg, stored, ?_, ?_, ?_⟩ <;> simp [Gate.apply, shape]
    | cons first rest =>
      have once : (first :: rest).Nodup := shape ▸ sound.once
      refine ⟨nonneg, stored, ?_, ?_, ?_⟩
      · simpa [Gate.apply, shape] using (List.nodup_cons.mp once).2
      · intro other listed woken
        simp only [Gate.apply, shape, List.tail_cons, List.head?_cons] at listed woken
        rcases woken with old | new
        · exact sound.apart other (by simp [shape, listed]) old
        · simp only [Option.mem_def, Option.some.injEq, Set.mem_ofPred_eq] at new
          exact (List.nodup_cons.mp once).1 (new ▸ listed)
      · intro _
        obtain ⟨threads, subset, enough⟩ := sound.covered (by simp [shape])
        have absent : first ∉ threads := fun member =>
          sound.apart first (by simp [shape]) (subset (Finset.mem_coe.mpr member))
        -- The thread that is woken stands for the unit that is added.
        refine ⟨insert first threads, ?_, ?_⟩
        · intro other member
          rcases Finset.mem_insert.mp (Finset.mem_coe.mp member) with rfl | old
          · right
            simp [shape]
          · exact .inl (subset (Finset.mem_coe.mpr old))
        · rw [Finset.card_insert_of_notMem absent]
          simp only [Gate.apply]
          omega

/-- The gate moves along the events, each of which may happen when it does. -/
def Follows (gate : Gate τ) (events : List (Event τ)) (after : Gate τ) : Prop :=
  Runs.Accepts apply allows gate events ∧ events.foldl apply gate = after

/-- Nothing happens at the gate. -/
theorem follows_nil {after : Gate τ} (same : after = gate) : gate.Follows [] after :=
  ⟨trivial, same.symm⟩

/-- A single event happens at the gate. -/
theorem follows_one {event : Event τ} {after : Gate τ} (allowed : gate.allows event)
    (result : after = gate.apply event) : gate.Follows [event] after :=
  ⟨⟨allowed, trivial⟩, result.symm⟩

/-- Events that happen one after the other. -/
theorem Follows.append {middle after : Gate τ} {earlier later : List (Event τ)}
    (first : gate.Follows earlier middle) (second : middle.Follows later after) :
    gate.Follows (earlier ++ later) after := by
  obtain ⟨allowed, rfl⟩ := first
  exact ⟨Runs.accepts_append.mpr ⟨allowed, second.1⟩, by rw [List.foldl_append, second.2]⟩

/-- What is stored of a number is decided once. -/
theorem store_apply (gate : Gate τ) (event : Event τ) : (gate.apply event).store = gate.store := by
  cases event <;> rfl

/-- A gate that starts sound stays sound, if units are stored up to a bound. -/
theorem Follows.sound {events : List (Event τ)} {after : Gate τ} {top : Int}
    (follows : gate.Follows events after) (sound : gate.Sound) (bounded : gate.store = min top)
    (room : 0 ≤ top) : after.Sound := by
  obtain ⟨allowed, rfl⟩ := follows
  induction events generalizing gate with
  | nil => exact sound
  -- No event changes the bound, so there is room again at the next one.
  | cons event rest ih =>
    refine ih (sound.apply allowed.1 fun _ => sound.fits bounded room) ?_ allowed.2
    rw [store_apply, bounded]

/-- How much an event changes the units of a gate where all of them can be stored. -/
def Event.gain : Event τ → Int
  | .passed _ => -1
  | .slept _ => 0
  | .raised => 1

/-- The next number can be stored when a unit is added. -/
def Stores (gate : Gate τ) (event : Event τ) : Prop :=
  event = .raised → gate.store (gate.units + 1) = gate.units + 1

/--
A gate that starts sound stays sound while the next number can be stored, and its units are those
it had, plus those added, minus those taken.
-/
theorem Follows.counts {events : List (Event τ)} {after : Gate τ}
    (follows : gate.Follows events after) (sound : gate.Sound)
    (stores : Runs.Accepts apply Stores gate events) :
    after.Sound ∧ after.units = gate.units + (events.map Event.gain).sum := by
  obtain ⟨allowed, rfl⟩ := follows
  induction events generalizing gate with
  | nil => exact ⟨sound, by simp⟩
  | cons event rest ih =>
    have next := stores.1
    have sound' := sound.apply allowed.1 fun raised => (sound.more (next raised)).1
    -- One event changes the units by its own gain.
    have one : (gate.apply event).units = gate.units + event.gain := by
      cases event with
      | passed thread =>
        have less := sound.less allowed.1.1
        simp only [Gate.apply, Event.gain, less]
        omega
      | slept thread => simp [Gate.apply, Event.gain]
      | raised => exact (sound.more (next rfl)).2
    obtain ⟨later, units⟩ := ih sound' stores.2 allowed.2
    refine ⟨later, ?_⟩
    rw [List.foldl_cons, units, one, List.map_cons, List.sum_cons]
    omega

end Gate
