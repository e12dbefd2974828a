import Nachos.Babuinos.Monitor
import Mathlib.Algebra.BigOperators.Fin
import Mathlib.Algebra.Order.BigOperators.Group.Finset
import Mathlib.Data.Fintype.BigOperators

/-! The counters of the baboons, for any number of ropes and any number of baboons that may cross. -/

namespace Babuinos

/-- The search for the largest count goes on from an index that it only gives up for a larger one. -/
theorem foldl_mayor {α : Type} (count : α → Int) (ropes : List α) (first : α) :
    count first ≤ count (ropes.foldl
      (fun mayor i => if count mayor < count i then i else mayor) first) ∧
    ∀ i ∈ ropes, count i ≤ count (ropes.foldl
      (fun mayor i => if count mayor < count i then i else mayor) first) := by
  -- The first rope either stays or makes place for a larger one.
  induction ropes generalizing first with
  | nil => simp
  | cons rope ropes ih =>
    rw [List.foldl_cons]
    obtain ⟨start, others⟩ := ih (if count first < count rope then rope else first)
    split at start
    · rename_i more
      rw [if_pos more] at others ⊢
      refine ⟨by omega, fun i member => ?_⟩
      rcases List.mem_cons.mp member with rfl | member
      · exact start
      · exact others i member
    · rename_i less
      rw [if_neg less] at others ⊢
      refine ⟨start, fun i member => ?_⟩
      rcases List.mem_cons.mp member with rfl | member
      · omega
      · exact others i member

namespace Cuentas

variable {ropes : Nat}

/-- What the critical section of an arriving baboon does to the counters, and the rope it releases. -/
def run (positive : 0 < ropes) (limit : Int) (cuentas : Cuentas ropes) (cuerda : Fin ropes) :
    Option (Fin ropes) × Cuentas ropes :=
  let cuentas := cuentas.arrive cuerda
  if cuentas.countBabuinos = limit then
    let freed := mayor positive cuentas.count
    (some freed, cuentas.release freed)
  else (none, cuentas)

/-- The counters behind the arrivals at these ropes, one after the other. -/
def arrivals (positive : 0 < ropes) (limit : Int) (cuerdas : List (Fin ropes)) : Cuentas ropes :=
  cuerdas.foldl (fun cuentas cuerda => (cuentas.run positive limit cuerda).2) new

/-- The total counts the baboons at all ropes. -/
structure Summed (cuentas : Cuentas ropes) : Prop where
  total : cuentas.countBabuinos = ∑ cuerda, cuentas.count cuerda
  nonneg : ∀ cuerda, 0 ≤ cuentas.count cuerda

/-- What holds of the counters between two critical sections. -/
structure Balanced (limit : Int) (cuentas : Cuentas ropes) : Prop extends cuentas.Summed where
  few : cuentas.countBabuinos < limit

/-- A rope is released as it should be: there was none with more baboons, it had its share of the limit,
rounded up, and the other ropes are left alone. -/
structure Released (limit : Int) (found after : Cuentas ropes) (freed : Fin ropes) : Prop where
  most : ∀ cuerda, found.count cuerda ≤ found.count freed
  share : (limit + (ropes - 1)) / ropes ≤ found.count freed
  kept : ∀ cuerda, cuerda ≠ freed → after.count cuerda = found.count cuerda
  emptied : after.count freed = 0

/-- One count is replaced in the sum. -/
theorem sum_replace (count : Fin ropes → Int) (cuerda : Fin ropes) (value : Int) :
    ∑ other, (if other = cuerda then value else count other) =
      ∑ other, count other + (value - count cuerda) := by
  -- Only one summand differs, by the difference of the counts.
  have apart (other : Fin ropes) : (if other = cuerda then value else count other) =
      count other + if other = cuerda then value - count cuerda else 0 := by
    split
    · rename_i same
      rw [same]
      omega
    · omega
  simp only [apart, Finset.sum_add_distrib, Finset.sum_ite_eq', Finset.mem_univ, if_true]

/-- No rope has more baboons than the one that is released. -/
theorem count_le_mayor (positive : 0 < ropes) (count : Fin ropes → Int) (cuerda : Fin ropes) :
    count cuerda ≤ count (mayor positive count) :=
  (foldl_mayor count _ _).2 cuerda (List.mem_finRange cuerda)

/-- The most baboons on one rope are at least as many as all of them spread evenly. -/
theorem share_le_mayor (positive : 0 < ropes) (count : Fin ropes → Int) :
    (∑ cuerda, count cuerda + (ropes - 1)) / ropes ≤ count (mayor positive count) := by
  -- Every summand is at most the largest one.
  have bounded : ∑ cuerda, count cuerda ≤ Finset.univ.card • count (mayor positive count) :=
    Finset.sum_le_card_nsmul _ _ _ fun cuerda _ => count_le_mayor positive count cuerda
  rw [Finset.card_fin, nsmul_eq_mul] at bounded
  refine Int.le_of_lt_add_one (Int.ediv_lt_of_lt_mul (by omega) ?_)
  rw [Int.add_mul, Int.mul_comm]
  omega

variable {limit : Int} {cuentas : Cuentas ropes}

/-- An arriving baboon is counted twice, at its rope and in the total. -/
theorem Summed.arrive (summed : cuentas.Summed) (cuerda : Fin ropes) :
    (cuentas.arrive cuerda).Summed where
  total := by
    have replaced : ∑ other, (cuentas.arrive cuerda).count other = _ :=
      sum_replace cuentas.count cuerda (cuentas.count cuerda + 1)
    have counted : (cuentas.arrive cuerda).countBabuinos = cuentas.countBabuinos + 1 := rfl
    -- One more at the rope is one more in the total.
    rw [replaced, counted, summed.total]
    omega
  nonneg other := by
    have before := summed.nonneg cuerda
    have others := summed.nonneg other
    rw [Cuentas.arrive]
    dsimp only
    split <;> omega

/-- A rope that is released is missing in the sum and in the total. -/
theorem Summed.release (summed : cuentas.Summed) (cuerda : Fin ropes) :
    (cuentas.release cuerda).Summed where
  total := by
    have replaced : ∑ other, (cuentas.release cuerda).count other = _ :=
      sum_replace cuentas.count cuerda 0
    have counted : (cuentas.release cuerda).countBabuinos =
        cuentas.countBabuinos - cuentas.count cuerda := rfl
    -- What is taken from the rope is taken from the total.
    rw [replaced, counted, summed.total]
    omega
  nonneg other := by
    have others := summed.nonneg other
    rw [Cuentas.release]
    dsimp only
    split <;> omega

/-- The critical section of an arriving baboon keeps the counters balanced. -/
theorem Balanced.run (positive : 0 < ropes) (balanced : Balanced limit cuentas)
    (cuerda : Fin ropes) : Balanced limit (cuentas.run positive limit cuerda).2 := by
  have summed := balanced.toSummed.arrive cuerda
  have few := balanced.few
  have counted : (cuentas.arrive cuerda).countBabuinos = cuentas.countBabuinos + 1 := rfl
  rw [Cuentas.run]
  dsimp only
  split
  · rename_i full
    refine ⟨summed.release _, ?_⟩
    -- The rope of the arriving baboon is not empty, so the one that is released is not either.
    have own := count_le_mayor positive (cuentas.arrive cuerda).count cuerda
    have here : (cuentas.arrive cuerda).count cuerda = cuentas.count cuerda + 1 := if_pos rfl
    have before := balanced.nonneg cuerda
    show (cuentas.arrive cuerda).countBabuinos - _ < limit
    omega
  · -- The total was below the limit and has not met it, so it is below it still.
    rename_i short
    exact ⟨summed, show (cuentas.arrive cuerda).countBabuinos < limit by omega⟩

theorem balanced_new (enough : 1 ≤ limit) : Balanced limit (new : Cuentas ropes) :=
  ⟨⟨by simp [new], fun _ => le_rfl⟩, Int.lt_of_lt_of_le Int.zero_lt_one enough⟩

theorem balanced_arrivals (positive : 0 < ropes) (enough : 1 ≤ limit) (cuerdas : List (Fin ropes)) :
    Balanced limit (arrivals positive limit cuerdas) := by
  -- The last arrival is the one that is taken off.
  induction cuerdas using List.reverseRecOn with
  | nil => exact balanced_new enough
  | append_singleton cuerdas cuerda balanced =>
    rw [arrivals, List.foldl_append]
    exact balanced.run positive cuerda

/-- The last baboon up to the limit releases the rope with the most baboons. -/
theorem run_full (positive : 0 < ropes) (summed : cuentas.Summed) {cuerda : Fin ropes}
    (full : (cuentas.arrive cuerda).countBabuinos = limit) :
    ∃ freed after, cuentas.run positive limit cuerda = (some freed, after) ∧
      Released limit (cuentas.arrive cuerda) after freed := by
  -- With the limit reached, the total in the pigeonhole bound is the limit.
  have share := share_le_mayor positive (cuentas.arrive cuerda).count
  rw [← (summed.arrive cuerda).total, full] at share
  exact ⟨_, _, if_pos full, count_le_mayor positive _, share, fun other apart => if_neg apart,
    if_pos rfl⟩

/-- Whatever ropes the baboons arrive at, the counters are balanced between the critical sections, and
an arrival releases a rope exactly if it is the last one up to the limit. -/
theorem accounting (positive : 0 < ropes) (enough : 1 ≤ limit) (cuerdas : List (Fin ropes)) :
    Balanced limit (arrivals positive limit cuerdas) ∧ ∀ cuerda,
      let found := (arrivals positive limit cuerdas).arrive cuerda
      let ran := (arrivals positive limit cuerdas).run positive limit cuerda
      (found.countBabuinos = limit →
        ∃ freed after, ran = (some freed, after) ∧ Released limit found after freed) ∧
      (found.countBabuinos ≠ limit → ran = (none, found)) := by
  have balanced := balanced_arrivals positive enough cuerdas
  exact ⟨balanced, fun cuerda => ⟨run_full positive balanced.toSummed, fun short => if_neg short⟩⟩

/-- Three baboons arrive at two ropes, and the third one releases the rope with two of them. -/
theorem accounting_three : Balanced 3 (arrivals (by decide : 0 < 2) 3 [0, 1]) ∧
    ∃ freed after, (arrivals (by decide : 0 < 2) 3 [0, 1]).run (by decide) 3 1 =
      (some freed, after) ∧ Released 3 ((arrivals (by decide : 0 < 2) 3 [0, 1]).arrive 1) after freed :=
  ⟨(accounting (by decide) (by decide) [0, 1]).1,
    ((accounting (by decide) (by decide) [0, 1]).2 1).1 rfl⟩

end Cuentas

/-- The ropes at which baboons have arrived, in their order. -/
def arrivedAt (history : List Event) : List Cuerda :=
  history.filterMap fun
    | .arrived _ cuerda => some cuerda
    | _ => none

theorem arrivedAt_append (history later : List Event) :
    arrivedAt (history ++ later) = arrivedAt history ++ arrivedAt later :=
  List.filterMap_append

/-- The critical section of the monitor does to the counters what `run` does to them. -/
theorem cuentas_body (data : SharedData) (babuino : Babuino) (cuerda : Cuerda) :
    (data.body babuino cuerda).toCuentas = (data.toCuentas.run N_pos B cuerda).2 ∧
      arrivedAt (data.body babuino cuerda).history = arrivedAt data.history ++ [cuerda] := by
  have arrived : arrivedAt (data.arrive babuino cuerda).history = arrivedAt data.history ++ [cuerda] :=
    arrivedAt_append _ _
  rw [SharedData.body, Cuentas.run]
  dsimp only
  by_cases full : (data.arrive babuino cuerda).countBabuinos = B
  · have full' : (data.toCuentas.arrive cuerda).countBabuinos = B := full
    rw [if_pos full, if_pos full']
    -- The release is an event of its own, at which nobody arrives.
    have released (freed : Cuerda) : arrivedAt ((data.arrive babuino cuerda).release freed).history =
        arrivedAt data.history ++ [cuerda] :=
      (arrivedAt_append _ _).trans ((List.append_nil _).trans arrived)
    split
    · exact ⟨rfl, released _⟩
    · exact ⟨rfl, released _⟩
  · have short : ¬(data.toCuentas.arrive cuerda).countBabuinos = B := full
    rw [if_neg full, if_neg short]
    exact ⟨rfl, arrived⟩

/-- Only a critical section of an arriving baboon touches the counters. -/
theorem cuentas_step {data after : SharedData} {action : Action}
    (done : step data action = .ok after) :
    (after.toCuentas = data.toCuentas ∧ arrivedAt after.history = arrivedAt data.history) ∨
      ∃ cuerda, after.toCuentas = (data.toCuentas.run N_pos B cuerda).2 ∧
        arrivedAt after.history = arrivedAt data.history ++ [cuerda] := by
  cases action with
  | body babuino =>
    rw [step] at done
    split at done
    · cases done
      exact .inr ⟨_, cuentas_body data babuino _⟩
    · cases done
  | unlock babuino =>
    rw [step] at done
    split at done
    · cases done
      exact .inl ⟨rfl, (arrivedAt_append _ _).trans (List.append_nil _)⟩
    · cases done
  -- All the other actions only move baboons.
  | run | lock | spurious | relock =>
    rw [step] at done
    split at done
    · cases done
      exact .inl ⟨rfl, rfl⟩
    · cases done

/-- In every run of the monitor, also with a `wait` that ends for no reason, the counters are those that
the arrivals leave one after the other. -/
theorem cuentas_reachable {data : SharedData}
    (reached : Runs.Reachable step (· = SharedData.new) (fun _ _ => True) data) :
    data.toCuentas = Cuentas.arrivals N_pos B (arrivedAt data.history) := by
  refine reached.invariant (fun data => data.toCuentas = Cuentas.arrivals N_pos B (arrivedAt data.history))
    (fun state start => start ▸ rfl) (fun state action after counted _ done => ?_)
  rcases cuentas_step done with ⟨same, quiet⟩ | ⟨cuerda, ran, arrived⟩
  · rw [same, quiet, counted]
  · -- The arrival is the last one so far.
    rw [ran, arrived, counted, Cuentas.arrivals, Cuentas.arrivals, List.foldl_append]
    rfl

end Babuinos
