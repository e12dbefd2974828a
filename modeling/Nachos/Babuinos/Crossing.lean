import Nachos.Babuinos.Accounting

/-! Who crosses when no `wait` ends without a notification, and what the counters count. -/

namespace Babuinos

/-- The effect of one event on those who are inside and whose rope was not released for them. -/
def strand (stranded : List (Babuino × Cuerda)) : Event → List (Babuino × Cuerda)
  | .arrived babuino cuerda => stranded ++ [(babuino, cuerda)]
  | .released cuerda => stranded.filter fun pair => pair.2 ≠ cuerda
  | .returned babuino => stranded.filter fun pair => pair.1 ≠ babuino

/-- The baboons inside `run` whose rope has not been released since they arrived. -/
def stranded (history : List Event) : List (Babuino × Cuerda) := history.foldl strand []

/-- A baboon counted itself at some time. -/
def Counted (history : List Event) (babuino : Babuino) (cuerda : Cuerda) : Prop :=
  ∃ earlier later, history = earlier ++ .arrived babuino cuerda :: later

/-- Some arrival released the rope of a baboon, at its own arrival or later. -/
def Freed (history : List Event) (babuino : Babuino) (cuerda : Cuerda) : Prop :=
  ∃ earlier later, history = earlier ++ .arrived babuino cuerda :: later ∧
    .released cuerda ∈ later

/-- A rope is released when `B` baboons are there, and only who was released returns. -/
def Allowed (earlier : List Event) : Event → Prop
  | .arrived _ _ => True
  | .released _ => (stranded earlier).length = B
  | .returned babuino => ∃ cuerda, Freed earlier babuino cuerda

/-- Every event of a history was allowed by what had happened before. -/
def Lawful (history : List Event) : Prop :=
  Runs.Accepts (fun earlier event => earlier ++ [event]) Allowed [] history

/-- No `wait` ends without a notification. -/
def Notified (_ : SharedData) (action : Action) : Prop := ∀ babuino, action ≠ .spurious babuino

/-- The invariant of the monitor. -/
structure Inv (data : SharedData) : Prop where
  holder : ∀ babuino cuerda, data.phase babuino = .entered cuerda ∨
    data.phase babuino = .leaving cuerda → data.canAcces = some babuino
  blocked : ∀ babuino cuerda, (babuino, cuerda) ∈ stranded data.history ↔
    data.phase babuino = .waiting cuerda
  distinct : (stranded data.history).Nodup
  count : ∀ cuerda, data.count cuerda =
    (stranded data.history).countP fun pair => pair.2 = cuerda
  countBabuinos : data.countBabuinos = (stranded data.history).length
  few : data.countBabuinos < B
  counted : ∀ babuino cuerda, data.phase babuino = .waiting cuerda →
    Counted data.history babuino cuerda
  freed : ∀ babuino cuerda, data.phase babuino = .woken cuerda ∨
    data.phase babuino = .leaving cuerda → Freed data.history babuino cuerda
  lawful : Lawful data.history

/-- The events so far are the state of the specification. -/
theorem foldl_concat (earlier history : List Event) :
    history.foldl (fun earlier event => earlier ++ [event]) earlier = earlier ++ history := by
  induction history generalizing earlier with
  | nil => simp
  | cons event rest ih => simp [ih]

/-- One more event keeps a history lawful when it is allowed. -/
theorem Lawful.concat {history : List Event} {event : Event} (lawful : Lawful history)
    (allowed : Allowed history event) : Lawful (history ++ [event]) := by
  refine Runs.accepts_append.mpr ⟨lawful, ?_, trivial⟩
  rwa [foldl_concat]

/-- What was allowed can be read off any place of a lawful history. -/
theorem Lawful.at {earlier later : List Event} {event : Event}
    (lawful : Lawful (earlier ++ event :: later)) : Allowed earlier event := by
  have allowed := (Runs.accepts_append.mp lawful).2.1
  rwa [foldl_concat] at allowed

/-- The last event decides last. -/
theorem stranded_concat (history : List Event) (event : Event) :
    stranded (history ++ [event]) = strand (stranded history) event := by
  simp [stranded]

/-- Who was freed stays so. -/
theorem Freed.concat {history : List Event} {babuino : Babuino} {cuerda : Cuerda}
    (freed : Freed history babuino cuerda) (event : Event) :
    Freed (history ++ [event]) babuino cuerda := by
  obtain ⟨earlier, later, rfl, member⟩ := freed
  exact ⟨earlier, later ++ [event], by simp, List.mem_append_left _ member⟩

/-- The part of the invariant that speaks about the counters only. -/
structure Tallied (data : SharedData) : Prop where
  distinct : (stranded data.history).Nodup
  count : ∀ cuerda, data.count cuerda =
    (stranded data.history).countP fun pair => pair.2 = cuerda
  countBabuinos : data.countBabuinos = (stranded data.history).length
  lawful : Lawful data.history

/-- A baboon that was not inside counts itself. -/
theorem Tallied.arrive {data : SharedData} (tallied : Tallied data) {babuino : Babuino}
    {cuerda : Cuerda} (outside : (babuino, cuerda) ∉ stranded data.history) :
    Tallied (data.arrive babuino cuerda) := by
  have inside : stranded (data.arrive babuino cuerda).history =
      stranded data.history ++ [(babuino, cuerda)] := stranded_concat _ _
  refine ⟨?_, ?_, ?_, tallied.lawful.concat trivial⟩
  · rw [inside]
    exact List.nodup_append.mpr ⟨tallied.distinct, List.nodup_singleton _, by
      rintro pair member other single rfl
      exact outside (List.mem_singleton.mp single ▸ member)⟩
  · intro other
    rw [inside, List.countP_append, List.countP_singleton]
    by_cases same : other = cuerda
    · subst same
      simp [SharedData.arrive, Cuentas.arrive, tallied.count]
    · simp [SharedData.arrive, Cuentas.arrive, same, Ne.symm same, tallied.count]
  · rw [inside]
    simp [SharedData.arrive, Cuentas.arrive, tallied.countBabuinos]

/-- A rope is released, and the counters forget who was there. -/
theorem Tallied.release {data : SharedData} (tallied : Tallied data) {cuerda : Cuerda}
    (enough : data.countBabuinos = B) : Tallied (data.release cuerda) := by
  have inside : stranded (data.release cuerda).history =
      (stranded data.history).filter fun pair => pair.2 ≠ cuerda := stranded_concat _ _
  refine ⟨?_, ?_, ?_, tallied.lawful.concat (tallied.countBabuinos.symm.trans enough)⟩
  · rw [inside]
    exact tallied.distinct.filter _
  · intro other
    rw [inside, List.countP_filter]
    by_cases same : other = cuerda
    · subst same
      simp [SharedData.release, Cuentas.release]
    · -- The other ropes are counted as before.
      have alike : ∀ pair : Babuino × Cuerda,
          (decide (pair.2 = other) && decide (pair.2 ≠ cuerda)) = decide (pair.2 = other) := by
        intro pair
        by_cases here : pair.2 = other <;> simp [here, same]
      simp only [alike]
      simp [SharedData.release, Cuentas.release, same, tallied.count]
  · rw [inside]
    have parts := (stranded data.history).length_eq_countP_add_countP
      (fun pair => decide (pair.2 = cuerda))
    rw [← List.countP_eq_length_filter]
    simp only [SharedData.release, Cuentas.release, tallied.countBabuinos, tallied.count]
    simp only [decide_not, Bool.decide_eq_true] at parts ⊢
    omega

section

variable {data after : SharedData} {babuino : Babuino} {cuerda : Cuerda}

/-- The counters are right whenever the invariant holds. -/
theorem Inv.tallied (inv : Inv data) : Tallied data :=
  ⟨inv.distinct, inv.count, inv.countBabuinos, inv.lawful⟩

/-- A baboon changes its place without a trace in the history. -/
theorem Inv.moved (inv : Inv data) {phase : Phase} {holder : Option Babuino}
    (quiet : ∀ other, phase ≠ .waiting other) (before : ∀ other, data.phase babuino ≠ .waiting other)
    (holds : ∀ other, phase = .entered other ∨ phase = .leaving other → holder = some babuino)
    (others : ∀ other rope, other ≠ babuino → data.phase other = .entered rope ∨
      data.phase other = .leaving rope → holder = some other)
    (free : ∀ other, phase = .woken other ∨ phase = .leaving other →
      Freed data.history babuino other) :
    Inv { data.move babuino phase with canAcces := holder } := by
  refine ⟨?_, ?_, inv.distinct, inv.count, inv.countBabuinos, inv.few, ?_, ?_, inv.lawful⟩
  · intro other rope place
    by_cases same : other = babuino
    · subst same
      exact holds rope (by simpa [SharedData.move] using place)
    · exact others other rope same (by simpa [SharedData.move, same] using place)
  · intro other rope
    refine (inv.blocked other rope).trans ?_
    by_cases same : other = babuino
    · subst same
      simp [SharedData.move, quiet rope, before rope]
    · simp [SharedData.move, same]
  · intro other rope place
    by_cases same : other = babuino
    · subst same
      exact absurd (by simpa [SharedData.move] using place) (quiet rope)
    · exact inv.counted other rope (by simpa [SharedData.move, same] using place)
  · intro other rope place
    by_cases same : other = babuino
    · subst same
      exact free rope (by simpa [SharedData.move] using place)
    · exact inv.freed other rope (by simpa [SharedData.move, same] using place)

/-- Who counted itself did so whatever follows. -/
theorem Counted.concat {history : List Event} (counted : Counted history babuino cuerda)
    (event : Event) : Counted (history ++ [event]) babuino cuerda := by
  obtain ⟨earlier, later, rfl⟩ := counted
  exact ⟨earlier, later ++ [event], by simp⟩

/-- Who counted itself is freed when its rope is released. -/
theorem Counted.released {history : List Event} (counted : Counted history babuino cuerda) :
    Freed (history ++ [.released cuerda]) babuino cuerda := by
  obtain ⟨earlier, later, rfl⟩ := counted
  exact ⟨earlier, later ++ [.released cuerda], by simp, by simp⟩

/-- The arrival of a baboon that has to wait, because there are too few. -/
theorem Inv.waits (inv : Inv data) (entered : data.phase babuino = .entered cuerda)
    (few : (data.arrive babuino cuerda).countBabuinos < B) :
    Inv ((data.arrive babuino cuerda).wait babuino cuerda) := by
  have outside : (babuino, cuerda) ∉ stranded data.history := by
    rw [inv.blocked, entered]
    simp
  have holds := inv.holder babuino cuerda (.inl entered)
  obtain ⟨distinct, count, total, lawful⟩ := inv.tallied.arrive outside
  refine ⟨?_, ?_, distinct, count, total, few, ?_, ?_, lawful⟩
  · intro other rope place
    by_cases same : other = babuino
    · simp [SharedData.wait, SharedData.move, same] at place
    · -- The mutex had only one holder.
      have also := inv.holder other rope (by
        simpa [SharedData.wait, SharedData.move, SharedData.arrive, same] using place)
      rw [holds, Option.some.injEq] at also
      exact absurd also.symm same
  · intro other rope
    have inside : stranded ((data.arrive babuino cuerda).wait babuino cuerda).history =
        stranded data.history ++ [(babuino, cuerda)] := stranded_concat _ _
    rw [inside, List.mem_append, List.mem_singleton, inv.blocked, Prod.mk.injEq]
    by_cases same : other = babuino
    · subst same
      simp [SharedData.wait, SharedData.move, entered, eq_comm]
    · simp [SharedData.wait, SharedData.move, SharedData.arrive, same]
  · intro other rope place
    by_cases same : other = babuino
    · subst same
      obtain rfl : cuerda = rope := by simpa [SharedData.wait, SharedData.move] using place
      exact ⟨data.history, [], rfl⟩
    · exact Counted.concat (inv.counted other rope (by
        simpa [SharedData.wait, SharedData.move, SharedData.arrive, same] using place)) _
  · intro other rope place
    by_cases same : other = babuino
    · simp [SharedData.wait, SharedData.move, same] at place
    · exact (inv.freed other rope (by
        simpa [SharedData.wait, SharedData.move, SharedData.arrive, same] using place)).concat _

/-- The arrival of a baboon that releases a rope, its own or another one. -/
theorem Inv.releases (inv : Inv data) (entered : data.phase babuino = .entered cuerda)
    (enough : (data.arrive babuino cuerda).countBabuinos = B) {freed : Cuerda}
    (most : 0 < (data.arrive babuino cuerda).count freed) {phase : Phase}
    {holder : Option Babuino}
    (ends : freed ≠ cuerda ∧ phase = .waiting cuerda ∧ holder = none ∨
      freed = cuerda ∧ phase = .leaving cuerda ∧ holder = some babuino) :
    Inv { ((data.arrive babuino cuerda).release freed).move babuino phase with
      canAcces := holder } := by
  have outside : (babuino, cuerda) ∉ stranded data.history := by
    rw [inv.blocked, entered]
    simp
  have holds := inv.holder babuino cuerda (.inl entered)
  have tallied : Tallied ((data.arrive babuino cuerda).release freed) :=
    (inv.tallied.arrive outside).release enough
  obtain ⟨distinct, count, total, lawful⟩ := tallied
  have places : ∀ other, ({ ((data.arrive babuino cuerda).release freed).move babuino phase with
      canAcces := holder } : SharedData).phase other = if other = babuino then phase
        else if data.phase other = .waiting freed then .woken freed else data.phase other :=
    fun _ => rfl
  refine ⟨?_, ?_, distinct, count, total, ?_, ?_, ?_, lawful⟩
  · intro other rope place
    rw [places] at place
    by_cases same : other = babuino
    · subst same
      rcases ends with ⟨-, rfl, -⟩ | ⟨-, rfl, rfl⟩
      · simp at place
      · rfl
    · -- The mutex had only one holder.
      rw [if_neg same] at place
      have also := inv.holder other rope (by split at place <;> simp_all)
      rw [holds, Option.some.injEq] at also
      exact absurd also.symm same
  · intro other rope
    have inside : stranded ((data.arrive babuino cuerda).release freed).history =
        (stranded data.history ++ [(babuino, cuerda)]).filter fun pair => pair.2 ≠ freed :=
      (stranded_concat (data.history ++ [Event.arrived babuino cuerda]) (.released freed)).trans
        (congrArg (strand · (.released freed))
          (stranded_concat data.history (.arrived babuino cuerda)))
    have member : (other, rope) ∈ stranded ((data.arrive babuino cuerda).release freed).history ↔
        (data.phase other = .waiting rope ∨ other = babuino ∧ rope = cuerda) ∧ rope ≠ freed := by
      simp [inside, inv.blocked, or_and_right]
    refine member.trans ?_
    rw [places]
    by_cases same : other = babuino
    · subst same
      -- The baboon waits at its own rope, unless it has released that one.
      obtain ⟨differ, rfl, -⟩ | ⟨rfl, rfl, -⟩ := ends
      · simp only [entered, reduceCtorEq, true_and, false_or, if_true, Phase.waiting.injEq]
        constructor
        · exact fun both => both.1.symm
        · exact fun named => ⟨named.symm, named ▸ Ne.symm differ⟩
      · simp [entered]
    · rw [if_neg same]
      split
      · rename_i waited
        simp only [waited, Phase.waiting.injEq, same, false_and, or_false, reduceCtorEq, iff_false,
          not_and, not_not]
        exact Eq.symm
      · rename_i elsewhere
        simp only [same, false_and, or_false, and_iff_left_iff_imp]
        rintro waits rfl
        exact elsewhere waits
  · have less : (data.arrive babuino cuerda).countBabuinos -
        (data.arrive babuino cuerda).count freed < B := by omega
    exact less
  · intro other rope place
    rw [places] at place
    by_cases same : other = babuino
    · subst same
      rw [if_pos rfl] at place
      subst place
      obtain ⟨-, named, -⟩ | ⟨-, named, -⟩ := ends
      · obtain rfl : rope = cuerda := by simpa using named
        exact Counted.concat ⟨data.history, [], rfl⟩ _
      · simp at named
    · rw [if_neg same] at place
      split at place
      · simp at place
      · exact (Counted.concat (inv.counted other rope place) _).concat _
  · intro other rope place
    rw [places] at place
    by_cases same : other = babuino
    · subst same
      rw [if_pos rfl] at place
      obtain ⟨-, rfl, -⟩ | ⟨rfl, rfl, -⟩ := ends
      · simp at place
      · -- The baboon has released its own rope.
        obtain rfl : freed = rope := by simpa using place
        exact Counted.released ⟨data.history, [], rfl⟩
    · rw [if_neg same] at place
      split at place
      · rename_i waited
        obtain rfl : freed = rope := by simpa using place
        exact (Counted.concat (inv.counted other freed waited) _).released
      · exact ((inv.freed other rope place).concat _).concat _

/-- Whatever an arrival finds, the invariant holds when the baboon waits or is done. -/
theorem Inv.body (inv : Inv data) (entered : data.phase babuino = .entered cuerda) :
    Inv (data.body babuino cuerda) := by
  have own : 0 < (data.arrive babuino cuerda).count cuerda := by
    have before := inv.count cuerda
    have after : (data.arrive babuino cuerda).count cuerda = data.count cuerda + 1 := if_pos rfl
    omega
  have most : (data.arrive babuino cuerda).count cuerda ≤
      (data.arrive babuino cuerda).count (SharedData.mayor (data.arrive babuino cuerda).count) :=
    Cuentas.count_le_mayor N_pos _ cuerda
  have total : (data.arrive babuino cuerda).countBabuinos = data.countBabuinos + 1 := rfl
  have few := inv.few
  unfold SharedData.body
  dsimp only
  split
  · rename_i enough
    split
    · rename_i differ
      exact inv.releases entered enough (by omega) (.inl ⟨differ, rfl, rfl⟩)
    · rename_i same
      -- The baboon keeps the mutex, which it holds since it entered.
      have holds : (((data.arrive babuino cuerda).release
          (SharedData.mayor (data.arrive babuino cuerda).count)).move babuino
            (.leaving cuerda)).canAcces = some babuino := inv.holder babuino cuerda (.inl entered)
      have released := inv.releases entered enough (by omega)
        (.inr ⟨not_not.mp same, rfl, rfl⟩)
      rw [← holds] at released
      exact released
  · exact inv.waits entered (by omega)

/-- Who returns was freed, and is no longer counted. -/
theorem Inv.unlock (inv : Inv data) (leaves : data.phase babuino = .leaving cuerda) :
    Inv { data.move babuino .returned with
      canAcces := none
      history := data.history ++ [.returned babuino] } := by
  have holds := inv.holder babuino cuerda (.inr leaves)
  have inside : stranded (data.history ++ [.returned babuino]) = stranded data.history := by
    rw [stranded_concat]
    refine List.filter_eq_self.mpr ?_
    rintro ⟨other, rope⟩ member
    -- Only baboons that wait are counted.
    have waits := (inv.blocked other rope).mp member
    simp only [decide_eq_true_eq]
    rintro rfl
    simp [leaves] at waits
  have moved : Inv { data.move babuino .returned with canAcces := none } := by
    refine inv.moved (by simp) (by simp [leaves]) (by simp) ?_ (by simp)
    intro other rope differ place
    have also := inv.holder other rope place
    rw [holds, Option.some.injEq] at also
    exact absurd also.symm differ
  refine ⟨moved.holder, ?_, ?_, ?_, ?_, moved.few, ?_, ?_,
    inv.lawful.concat ⟨cuerda, inv.freed babuino cuerda (.inr leaves)⟩⟩
  · intro other rope
    exact (iff_of_eq (congrArg ((other, rope) ∈ ·) inside)).trans (moved.blocked other rope)
  · exact inside ▸ moved.distinct
  · exact inside ▸ moved.count
  · exact inside ▸ moved.countBabuinos
  · exact fun other rope place => (moved.counted other rope place).concat _
  · exact fun other rope place => (moved.freed other rope place).concat _

/-- Every action but a spurious wake-up keeps the invariant. -/
theorem Inv.step {action : Action} (inv : Inv data) (notified : Notified data action)
    (done : step data action = .ok after) : Inv after := by
  cases action with
  | run babuino cuerda =>
    simp only [Babuinos.step] at done
    split at done
    · rename_i outside
      simp only [Except.ok.injEq] at done
      subst done
      exact inv.moved (by simp) (by simp [outside]) (by simp)
        (fun other rope _ place => inv.holder other rope place) (by simp)
    · simp at done
  | lock babuino =>
    simp only [Babuinos.step] at done
    split at done
    · rename_i cuerda arrives free
      simp only [Except.ok.injEq] at done
      subst done
      refine inv.moved (by simp) (by simp [arrives]) (by simp) ?_ (by simp)
      intro other rope _ place
      simp [inv.holder other rope place] at free
    · simp at done
  | body babuino =>
    simp only [Babuinos.step] at done
    split at done
    · rename_i cuerda entered
      simp only [Except.ok.injEq] at done
      exact done ▸ inv.body entered
    · simp at done
  | spurious babuino => exact absurd rfl (notified babuino)
  | relock babuino =>
    simp only [Babuinos.step] at done
    split at done
    · rename_i cuerda woken free
      simp only [Except.ok.injEq] at done
      subst done
      refine inv.moved (by simp) (by simp [woken]) (by simp) ?_ ?_
      · intro other rope _ place
        simp [inv.holder other rope place] at free
      · rintro rope (named | named)
        · simp at named
        · obtain rfl : cuerda = rope := by simpa using named
          exact inv.freed babuino cuerda (.inl woken)
    · simp at done
  | unlock babuino =>
    simp only [Babuinos.step] at done
    split at done
    · rename_i cuerda leaves
      simp only [Except.ok.injEq] at done
      exact done ▸ inv.unlock leaves
    · simp at done

end

/-- No baboon has been counted in the beginning. -/
theorem inv_new : Inv SharedData.new := by
  refine ⟨?_, ?_, .nil, ?_, rfl, by decide, ?_, ?_, trivial⟩ <;>
    simp [SharedData.new, Cuentas.new, stranded]

/-- Nobody crosses alone, and the counters count those who have to wait. -/
structure Safe (data : SharedData) : Prop where
  /-- Who returned was there when an arrival released its rope. -/
  freed : ∀ earlier babuino later, data.history = earlier ++ .returned babuino :: later →
    ∃ cuerda, Freed earlier babuino cuerda
  /-- A rope is released when `B` baboons wait. -/
  together : ∀ earlier cuerda later, data.history = earlier ++ .released cuerda :: later →
    (stranded earlier).length = B
  distinct : (stranded data.history).Nodup
  count : ∀ cuerda, data.count cuerda =
    (stranded data.history).countP fun pair => pair.2 = cuerda

/-- The monitor is safe as long as every `wait` ends with a notification. -/
theorem nobody_crosses_alone {data : SharedData}
    (reached : Runs.Reachable step (· = SharedData.new) Notified data) : Safe data := by
  have inv : Inv data := by
    refine reached.invariant Inv (fun state (start : state = SharedData.new) => start ▸ inv_new) ?_
    exact fun state action next inv notified done => inv.step notified done
  refine ⟨?_, ?_, inv.distinct, inv.count⟩
  · intro earlier babuino later same
    have lawful := inv.lawful
    rw [same] at lawful
    exact lawful.at
  · intro earlier cuerda later same
    have lawful := inv.lawful
    rw [same] at lawful
    exact lawful.at

/-- Forty baboons arrive at the first rope, and the last one crosses. -/
def herdRun : List Action :=
  ((List.range 40).flatMap fun babuino => [.run babuino ⟨0, N_pos⟩, .lock babuino,
    .body babuino]) ++ [.unlock 39]

/-- It was there when the rope was released, and nobody is counted any more. -/
theorem nobody_crosses_alone_herd :
    ∃ data earlier, Runs.run step SharedData.new herdRun = .ok data ∧
      data.history = earlier ++ [.returned 39] ∧ (∃ cuerda, Freed earlier 39 cuerda) ∧
      Safe data := by
  obtain ⟨data, ran, seen⟩ := Runs.exists_of_runsTo
    (show Runs.runsTo step SharedData.new herdRun (fun data =>
      decide (data.history = data.history.dropLast ++ [.returned 39])) = true by decide +kernel)
  rw [decide_eq_true_eq] at seen
  have guarded : Runs.Guarded step Notified SharedData.new herdRun := by
    refine Runs.guarded_of_forall (fun _ action member babuino => ?_) _
    simp only [herdRun, List.mem_append, List.mem_flatMap, List.mem_cons, List.not_mem_nil,
      or_false] at member
    rintro rfl
    simp at member
  have safe := nobody_crosses_alone (.extend (.start rfl) guarded ran)
  exact ⟨data, _, ran, seen, safe.freed _ 39 [] seen, safe⟩

/-- One baboon arrives, and its `wait` ends for no reason. -/
def spuriousRun : List Action :=
  [.run 0 ⟨0, N_pos⟩, .lock 0, .body 0, .spurious 0, .relock 0, .unlock 0]

/-- It crosses alone. -/
theorem not_safe_spurious :
    ¬ ∀ data, Runs.Reachable step (· = SharedData.new) (fun _ _ => True) data → Safe data := by
  intro all
  obtain ⟨data, ran, seen⟩ := Runs.exists_of_runsTo
    (show Runs.runsTo step SharedData.new spuriousRun (fun data =>
      decide (data.history = [.arrived 0 ⟨0, N_pos⟩, .returned 0])) = true by decide +kernel)
  rw [decide_eq_true_eq] at seen
  have safe := all data (.extend (.start rfl)
    (Runs.guarded_of_forall (fun _ _ _ => trivial) _) ran)
  -- Its arrival is all that happened before it returned.
  obtain ⟨cuerda, earlier, later, split, member⟩ :=
    safe.freed [.arrived 0 ⟨0, N_pos⟩] 0 [] seen
  have released : Event.released cuerda ∈ [Event.arrived 0 (⟨0, N_pos⟩ : Cuerda)] := by
    rw [split]
    exact List.mem_append_right _ (List.mem_cons_of_mem _ member)
  simp at released

end Babuinos
