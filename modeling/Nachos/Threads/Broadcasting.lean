import Nachos.Threads.Conditions

/-! `Condition::Broadcast`: when its loop ends, and whom it wakes. -/

namespace Nachos.Threads

variable {kernel after : Kernel} {thread : Thread} {condition lock : Nat}

/-- The loop of `Condition::Broadcast`, unless it needs more than so many turns. -/
def Kernel.broadcastLoop (thread : Thread) (condition lock : Nat) : Nat → Kernel → Option Kernel
  | 0, _ => none
  | turns + 1, kernel =>
    -- `while (this->queue->IsEmpty())`, with the call of `Signal` as its body.
    if (kernel.queue (.condition condition)).isEmpty then
      broadcastLoop thread condition lock turns (kernel.signal thread condition lock)
    else some kernel

/-- With nobody in the queue, `Signal` does nothing. -/
theorem signal_of_empty (empty : kernel.queue (.condition condition) = []) :
    kernel.signal thread condition lock = kernel := by
  -- Whether or not the lock is held, there is nobody to dequeue.
  rw [Kernel.signal, empty]
  split <;> rfl

/-- A turn of the loop leaves an empty queue empty, so there is no last turn. -/
theorem broadcastLoop_of_empty (empty : kernel.queue (.condition condition) = []) (turns : Nat) :
    kernel.broadcastLoop thread condition lock turns = none := by
  -- Every turn starts from the same state.
  induction turns with
  | zero => rfl
  | succ turns ih => rw [Kernel.broadcastLoop, empty, signal_of_empty empty, List.isEmpty_nil,
      if_pos rfl, ih]

/-- A queue with somebody in it ends the loop before its first turn. -/
theorem broadcastLoop_of_ne (waiting : kernel.queue (.condition condition) ≠ []) (turns : Nat) :
    kernel.broadcastLoop thread condition lock (turns + 1) = some kernel := by
  rw [Kernel.broadcastLoop, if_neg (by simpa using waiting)]

/-- `Broadcast` ends exactly where its loop ends, and leaves what the loop leaves. -/
theorem broadcast_eq_ok (held : kernel.isHeldBy lock thread = true) :
    kernel.broadcast thread condition lock = .ok after ↔
      ∃ turns, kernel.broadcastLoop thread condition lock turns = some after := by
  by_cases empty : kernel.queue (.condition condition) = []
  · -- The loop runs for ever.
    rw [Kernel.broadcast, if_pos ⟨held, empty⟩]
    simp [broadcastLoop_of_empty empty]
  · rw [Kernel.broadcast, if_neg fun both => empty both.2, Except.ok.injEq]
    constructor
    · rintro rfl
      exact ⟨1, broadcastLoop_of_ne empty 0⟩
    · rintro ⟨turns, ended⟩
      cases turns with
      | zero => cases ended
      | succ turns => rwa [broadcastLoop_of_ne empty, Option.some.injEq] at ended

/--
`Broadcast` ends with everybody of the queue behind the ready list, in the order of the queue.

Without the lock it changes nothing.
-/
def AwakensAll (kernel : Kernel) (thread : Thread) (condition lock : Nat) : Prop :=
  if kernel.isHeldBy lock thread then
    ∃ after, kernel.broadcast thread condition lock = .ok after ∧
      after.readyList = kernel.readyList ++ kernel.queue (.condition condition) ∧
      after.queue (.condition condition) = []
  else kernel.broadcast thread condition lock = .ok kernel

/-- With the lock, `Broadcast` either never ends or leaves everybody where they are. -/
theorem broadcast_of_held (held : kernel.isHeldBy lock thread = true)
    (done : kernel.broadcast thread condition lock = .ok after) :
    after = kernel ∧ kernel.queue (.condition condition) ≠ [] := by
  obtain ⟨turns, ended⟩ := (broadcast_eq_ok held).mp done
  -- An empty queue would have kept the loop going.
  have waiting : kernel.queue (.condition condition) ≠ [] := by
    intro empty
    rw [broadcastLoop_of_empty empty] at ended
    cases ended
  cases turns with
  | zero => cases ended
  | succ turns =>
    rw [broadcastLoop_of_ne waiting, Option.some.injEq] at ended
    exact ⟨ended.symm, waiting⟩

/-- `Broadcast` does what it is for exactly when its caller does not have the lock. -/
theorem awakensAll_iff_not_held (kernel : Kernel) (thread : Thread) (condition lock : Nat) :
    AwakensAll kernel thread condition lock ↔ kernel.isHeldBy lock thread = false := by
  cases held : kernel.isHeldBy lock thread with
  | false =>
    -- The test in front of the loop fails.
    rw [AwakensAll, if_neg (by simp [held]), Kernel.broadcast, if_neg (by simp [held])]
    simp
  | true =>
    rw [AwakensAll, if_pos held]
    refine iff_of_false ?_ (by decide)
    rintro ⟨after, done, -, emptied⟩
    -- The queue would have to be empty for the threads to be woken, but the loop ends only if not.
    obtain ⟨rfl, waiting⟩ := broadcast_of_held held done
    exact waiting emptied

/-- A lock and a condition, and nobody else who could wait. -/
def nobodyWaits : List Action :=
  [.create (.lock 0) 0, .create (.condition 0) 0, .call (.acquire 0)]

/-- With two threads in the queue nobody is woken, and with none of them the loop never ends. -/
theorem not_awakensAll_bothWait :
    (∃ kernel, Runs.run step firstKernel bothWait = .ok kernel ∧
      kernel.queue (.condition 0) = [1, 2] ∧ ¬ AwakensAll kernel 0 0 0) ∧
    ∃ kernel, Runs.run step firstKernel nobodyWaits = .ok kernel ∧
      kernel.queue (.condition 0) = [] ∧ ¬ AwakensAll kernel 0 0 0 := by
  constructor
  · obtain ⟨kernel, ran, checked⟩ := Runs.exists_of_runsTo
      (show Runs.runsTo step firstKernel bothWait (fun kernel =>
        kernel.queue (.condition 0) = [1, 2] ∧ kernel.isHeldBy 0 0) = true by decide +kernel)
    obtain ⟨queue, held⟩ : kernel.queue (.condition 0) = [1, 2] ∧ kernel.isHeldBy 0 0 = true := by
      simpa using checked
    refine ⟨kernel, ran, queue, ?_⟩
    rw [AwakensAll, if_pos held]
    rintro ⟨after, done, -, emptied⟩
    -- The loop is left at once, with both of them still there.
    rw [(broadcast_of_held held done).1, queue] at emptied
    cases emptied
  · obtain ⟨kernel, ran, checked⟩ := Runs.exists_of_runsTo
      (show Runs.runsTo step firstKernel nobodyWaits (fun kernel =>
        kernel.queue (.condition 0) = [] ∧ kernel.isHeldBy 0 0) = true by decide +kernel)
    obtain ⟨queue, held⟩ : kernel.queue (.condition 0) = [] ∧ kernel.isHeldBy 0 0 = true := by
      simpa using checked
    refine ⟨kernel, ran, queue, ?_⟩
    rw [AwakensAll, if_pos held]
    rintro ⟨after, done, -, -⟩
    exact (broadcast_of_held held done).2 queue

end Nachos.Threads
