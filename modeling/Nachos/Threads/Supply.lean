import Nachos.Threads.Serial

/-! Items that interrupts announce at a semaphore, and that one thread takes behind its `P`. -/

namespace Nachos.Threads

variable {Data Phase Entry Choice Device : Type}

/-- What a statement does about the supply of items. -/
inductive Consumption (semaphore : Nat) (awaits : Phase → Bool) (supply : Data → Nat)
    (phase : Phase) (data : Data) (outcome : Outcome Data Phase) : Prop
  /-- Nothing. -/
  | keep (before : awaits phase = false) (later : awaits outcome.phase = false)
      (still : supply outcome.data = supply data)
      (avoids : ∀ call ∈ outcome.call, .semaphore (.named semaphore) ∉ call.objects)
  /-- It waits for the next item. -/
  | await (before : awaits phase = false) (later : awaits outcome.phase = true)
      (calls : outcome.call = some (.p semaphore)) (still : supply outcome.data = supply data)
  /-- It takes an item, if there is one. -/
  | take (before : awaits phase = true) (later : awaits outcome.phase = false)
      (avoids : ∀ call ∈ outcome.call, .semaphore (.named semaphore) ∉ call.objects)
      (less : 0 < supply data → supply data = supply outcome.data + 1)

/-- One thread of a module takes items, of which the sane interrupts tell it by a semaphore. -/
structure Consuming (routines : Routines Data Phase Entry Choice Device)
    (rests : Phase → Place → Prop) (semaphore : Nat) (consumer : Thread)
    (works awaits : Phase → Bool) (supply : Data → Nat) (sane : Device → Data → Prop) : Prop where
  owned : routines.owns (.semaphore (.named semaphore)) = true
  busy : ∀ phase, awaits phase = true → routines.idle phase = false
  within : ∀ phase, awaits phase = true → works phase = true
  /-- Only a thread that waits for an item sleeps at the semaphore, and nowhere else. -/
  sleeps : ∀ phase place, rests phase place →
    (place = .inP (.named semaphore) ↔ awaits phase = true)
  statements : ∀ act thread phase data outcome,
    routines.statement act thread phase data = .ok outcome →
      Consumption semaphore awaits supply phase data outcome
  /-- Only the one thread begins to take items. -/
  consumer : ∀ act thread phase data outcome,
    routines.statement act thread phase data = .ok outcome → works outcome.phase = true →
      works phase = true ∨ thread = consumer
  /-- There are never more items than an `int` can count. -/
  few : ∀ data, supply data < 2 ^ 31
  /-- An interrupt brings an item, and signals the semaphore, or neither. -/
  devices : ∀ device data after signal, sane device data →
    routines.device device data = .ok (after, signal) →
    supply after = supply data + 1 ∧ signal = some semaphore ∨
      supply after = supply data ∧ signal ≠ some semaphore

/-- A thread that is behind its `P` and has yet to take the item. -/
def Client.entitled (client : Client Data Phase) (awaits : Phase → Bool) (thread : Thread) : Bool :=
  awaits (client.phase thread) && decide (client.kernel.place thread = .outside)

/-- Every item is in the semaphore, or the thread that takes them has come for it. -/
structure Supplied (semaphore : Nat) (consumer : Thread) (works awaits : Phase → Bool)
    (supply : Data → Nat) (client : Client Data Phase) : Prop where
  alone : ∀ thread, works (client.phase thread) = true → thread = consumer
  balance : (client.kernel.value (.named semaphore)).toNat +
    (if client.entitled awaits consumer then 1 else 0) = supply client.data

variable {routines : Routines Data Phase Entry Choice Device} {rests : Phase → Place → Prop}
  {semaphore : Nat} {consumer thread : Thread} {works awaits : Phase → Bool}
  {supply : Data → Nat} {sane : Device → Data → Prop} {client next : Client Data Phase}
  {act : Act Entry Choice Device} {kernel : Kernel} {data : Data} {phase : Thread → Phase}

/-- The value of a semaphore with units is positive. -/
theorem toNat_pos {value : BitVec 32} (some : value ≠ 0) : 0 < value.toNat := by
  refine Nat.pos_of_ne_zero fun zero => some ?_
  exact BitVec.eq_of_toNat_eq (by simpa using zero)

/-- It can be made one less. -/
theorem toNat_sub_one {value : BitVec 32} (some : value ≠ 0) :
    (value - 1).toNat = value.toNat - 1 := by
  have pos := toNat_pos some
  exact BitVec.toNat_sub_of_le (x := value) (y := 1) pos

/-- And one more, if it is not too large. -/
theorem toNat_add_one {value : BitVec 32} (room : value.toNat < 2 ^ 31) :
    (value + 1).toNat = value.toNat + 1 := by
  rw [BitVec.toNat_add]
  exact Nat.mod_eq_of_lt (by simpa using by omega)

/-- Steps after which everything is as it was. -/
theorem Supplied.frame (supplied : Supplied semaphore consumer works awaits supply client)
    (alone : ∀ thread, works (next.phase thread) = true → works (client.phase thread) = true)
    (value : next.kernel.value (.named semaphore) = client.kernel.value (.named semaphore))
    (entitled : next.entitled awaits consumer = client.entitled awaits consumer)
    (still : supply next.data = supply client.data) :
    Supplied semaphore consumer works awaits supply next where
  alone thread waits := supplied.alone thread (alone thread waits)
  balance := by
    rw [value, entitled, still]
    exact supplied.balance

/-- Nobody is entitled who does not wait. -/
theorem not_entitled_of_idle (quiet : awaits (client.phase thread) = false) :
    client.entitled awaits thread = false := by
  simp [Client.entitled, quiet]

/-- The phase of one thread changes, and the others keep theirs. -/
theorem Supplied.alone_update (supplied : Supplied semaphore consumer works awaits supply client)
    {later : Phase}
    (begins : works later = true → works (client.phase thread) = true ∨ thread = consumer) :
    ∀ other, works (Function.update client.phase thread later other) = true →
      other = consumer := by
  intro other labours
  by_cases mine : other = thread
  · rw [mine, Function.update_self] at labours
    rcases begins labours with also | only
    · exact mine ▸ supplied.alone thread also
    · exact mine ▸ only
  · rw [Function.update_of_ne mine] at labours
    exact supplied.alone other labours

/-- The thread that takes the items calls `P`, or goes on in it. -/
theorem Supplied.p (supplied : Supplied semaphore consumer works awaits supply client)
    (quiet : client.entitled awaits consumer = false)
    (alone : ∀ thread, works (phase thread) = true → thread = consumer)
    (waits : awaits (phase consumer) = true) (still : supply data = supply client.data) :
    Supplied semaphore consumer works awaits supply
      ⟨client.kernel.p consumer (.named semaphore), data, phase⟩ := by
  have balance := supplied.balance
  simp only [quiet, Bool.false_eq_true, if_false, add_zero] at balance
  by_cases zero : client.kernel.value (.named semaphore) = 0
  · -- There is no item, and the thread sleeps.
    have slept : client.kernel.p consumer (.named semaphore) =
        client.kernel.block consumer (.semaphore (.named semaphore)) (.inP (.named semaphore)) := by
      rw [Kernel.p, if_pos zero]
    have asleep : Client.entitled ⟨client.kernel.p consumer (.named semaphore), data, phase⟩
        awaits consumer = false := by
      simp [Client.entitled, slept]
    refine ⟨alone, ?_⟩
    rw [asleep, still, slept, Kernel.block_value]
    simpa using balance
  · -- It takes the unit of an item, and is entitled to it.
    have taken : client.kernel.p consumer (.named semaphore) = { client.kernel.leave consumer with
        value := Function.update client.kernel.value (.named semaphore)
          (client.kernel.value (.named semaphore) - 1) } := by
      rw [Kernel.p, if_neg zero]
    have entitled : Client.entitled ⟨client.kernel.p consumer (.named semaphore), data, phase⟩
        awaits consumer = true := by
      simp [Client.entitled, taken, waits, Kernel.leave]
    have less : (client.kernel.value (.named semaphore) - 1).toNat =
        (client.kernel.value (.named semaphore)).toNat - 1 := toNat_sub_one zero
    have some : 0 < (client.kernel.value (.named semaphore)).toNat := toNat_pos zero
    refine ⟨alone, ?_⟩
    rw [entitled, still, taken]
    simp only [Function.update_self, if_true, less]
    omega

/-- The thread that goes on behind its `P` finds an item. -/
theorem Supplied.pos (supplied : Supplied semaphore consumer works awaits supply client)
    (entitled : client.entitled awaits consumer = true) : 0 < supply client.data := by
  have balance := supplied.balance
  rw [entitled, if_pos rfl] at balance
  omega

/-- Every step with a sane interrupt keeps the balance. -/
theorem Supplied.step (supplied : Supplied semaphore consumer works awaits supply client)
    (consuming : Consuming routines rests semaphore consumer works awaits supply sane)
    (sound : ∀ device, act = .device device → sane device client.data)
    (moves : Moves routines rests client act next) :
    Supplied semaphore consumer works awaits supply next := by
  cases moves with
  -- A statement without a call takes an item, or leaves everything as it was.
  | @statement _ thread outcome current outside did silent =>
    have alone := supplied.alone_update (consuming.consumer _ _ _ _ _ did)
    refine ⟨alone, ?_⟩
    have balance := supplied.balance
    cases consuming.statements _ _ _ _ _ did with
    | keep before later still avoids =>
      have same : Client.entitled ⟨client.kernel, outcome.data,
          Function.update client.phase thread outcome.phase⟩ awaits consumer =
          client.entitled awaits consumer := by
        by_cases mine : consumer = thread
        · simp [Client.entitled, mine, before, later]
        · simp [Client.entitled, Function.update_of_ne mine]
      rw [same, still]
      exact balance
    | await before later calls still =>
      rw [silent] at calls
      cases calls
    | take before later avoids less =>
      -- Only the thread that takes the items was waiting, and it goes on.
      obtain rfl := supplied.alone thread (consuming.within _ before)
      have entitled : client.entitled awaits thread = true := by
        simp [Client.entitled, before, outside]
      have spent : Client.entitled ⟨client.kernel, outcome.data,
          Function.update client.phase thread outcome.phase⟩ awaits thread = false := by
        simp [Client.entitled, later]
      rw [entitled, less (supplied.pos entitled)] at balance
      rw [spent]
      simp only [if_true, Bool.false_eq_true, if_false] at balance ⊢
      omega
  | @call _ thread outcome call kernel current outside did calls performed =>
    have alone := supplied.alone_update (consuming.consumer _ _ _ _ _ did)
    have balance := supplied.balance
    -- The other threads stay where they are.
    have others (differ : consumer ≠ thread) : Client.entitled ⟨kernel, outcome.data,
        Function.update client.phase thread outcome.phase⟩ awaits consumer =
        client.entitled awaits consumer := by
      simp [Client.entitled, Function.update_of_ne differ,
        Kernel.perform_place_of_ne performed differ]
    cases consuming.statements _ _ _ _ _ did with
    | keep before later still avoids =>
      have same : Client.entitled ⟨kernel, outcome.data,
          Function.update client.phase thread outcome.phase⟩ awaits consumer =
          client.entitled awaits consumer := by
        by_cases mine : consumer = thread
        · simp [Client.entitled, mine, before, later]
        · exact others mine
      have value := (perform_avoids outside (avoids call calls) performed).1
      refine ⟨alone, ?_⟩
      rw [value, same, still]
      exact balance
    | await before later waits still =>
      rw [calls, Option.some.injEq] at waits
      subst waits
      cases performed
      obtain rfl := alone thread (by simpa using consuming.within _ later)
      refine supplied.p (not_entitled_of_idle before) alone ?_ still
      rw [Function.update_self]
      exact later
    | take before later avoids less =>
      obtain rfl := supplied.alone thread (consuming.within _ before)
      have entitled : client.entitled awaits thread = true := by
        simp [Client.entitled, before, outside]
      have spent : Client.entitled ⟨kernel, outcome.data,
          Function.update client.phase thread outcome.phase⟩ awaits thread = false := by
        simp [Client.entitled, later]
      have value := (perform_avoids outside (avoids call calls) performed).1
      refine ⟨alone, ?_⟩
      rw [entitled, less (supplied.pos entitled)] at balance
      rw [value, spent]
      simp only [if_true, Bool.false_eq_true, if_false] at balance ⊢
      omega
  -- An interrupt without a signal brings nothing.
  | @handle device data settled handled =>
    rcases consuming.devices _ _ _ _ (sound device rfl) handled with ⟨-, signals⟩ | ⟨still, -⟩
    · cases signals
    · exact supplied.frame (fun _ waits => waits) rfl rfl still
  | @raise device data other settled handled =>
    have same : Client.entitled ⟨client.kernel.v (.named other), data, client.phase⟩
        awaits consumer = client.entitled awaits consumer := by
      simp only [Client.entitled, (raises_v client.kernel (.named other)).place]
    rcases consuming.devices _ _ _ _ (sound device rfl) handled with
      ⟨more, signals⟩ | ⟨still, differ⟩
    · -- The item and its unit come together.
      obtain rfl : other = semaphore := Option.some.inj signals
      have balance := supplied.balance
      have few := consuming.few client.data
      have value : ((client.kernel.v (.named other)).value (.named other)).toNat =
          (client.kernel.value (.named other)).toNat + 1 := by
        simp only [Kernel.v, Function.update_self]
        exact toNat_add_one (by omega)
      refine ⟨supplied.alone, ?_⟩
      rw [same, more, value]
      omega
    · have foreign : SemaphoreName.named semaphore ≠ .named other := by
        rintro ⟨⟩
        exact differ rfl
      exact supplied.frame (fun _ labours => labours)
        (by simp [Kernel.v, Function.update_of_ne foreign]) same still
  -- A thread that has been woken tries to go on.
  | @resume thread kernel current busy rested resumed =>
    have there := consuming.sleeps _ _ rested
    by_cases waits : client.kernel.place thread = .inP (.named semaphore)
    · -- It waits at the semaphore, and calls `P` again.
      obtain rfl := supplied.alone thread (consuming.within _ (there.mp waits))
      rw [waits, Kernel.resume, Except.ok.injEq] at resumed
      subst resumed
      exact supplied.p (by simp [Client.entitled, waits]) supplied.alone (there.mp waits) rfl
    · refine supplied.frame (fun _ also => also) (resume_avoids waits resumed) ?_ rfl
      by_cases mine : consumer = thread
      · -- A thread that sleeps elsewhere waits for no item.
        have quiet : awaits (client.phase thread) = false := by
          rw [← Bool.not_eq_true]
          exact fun also => waits (there.mpr also)
        simp [Client.entitled, mine, quiet]
      · simp only [Client.entitled, Kernel.resume_place_of_ne resumed mine]
  -- The steps of other code touch none of the objects of this module.
  | @other action kernel stepped untouched still =>
    refine supplied.frame (fun _ also => also)
      (Kernel.value_eq_of_units (untouched.units _ consuming.owned)) ?_ rfl
    cases waits : awaits (client.phase consumer) with
    | false => simp [Client.entitled, waits]
    | true => simp only [Client.entitled, still consumer (consuming.busy _ waits)]

end Nachos.Threads
