import Mathlib.Logic.Function.Basic
import Nachos.Lib.Runs

/-! Threads that each have a processor of their own, of which they give up nothing to each other. -/

namespace Processors

universe u v w

/-- The context of each thread that there is. -/
abbrev Contexts (τ : Type u) (Context : Type v) := τ → Option Context

/-- What happens on the processors. -/
inductive Event (τ : Type u) (Context : Type v) (Task : Type w) where
  /-- A thread is there from now on, to carry out a task. -/
  | began (thread : τ) (task : Task) (context : Context)
  /-- A thread goes on from one context to another. -/
  | went (thread : τ) (before after : Context)
  /-- A thread lets others go on, and returns from doing so. -/
  | yielded (thread : τ) (before : Context)
  | ended (thread : τ)

variable {τ : Type u} [DecidableEq τ] {Context : Type v} {Task : Type w}

/-- The contexts after an event; who has yielded is where it returns. -/
def apply (back : Context → Context) (contexts : Contexts τ Context) :
    Event τ Context Task → Contexts τ Context
  | .began thread _ context => Function.update contexts thread (some context)
  | .went thread _ after => Function.update contexts thread (some after)
  | .yielded thread before => Function.update contexts thread (some (back before))
  | .ended thread => Function.update contexts thread none

/-- A thread begins as its task says, and goes on from its own context only. -/
def Allows (starts : Task → Context → Prop) (contexts : Contexts τ Context) :
    Event τ Context Task → Prop
  | .began thread task context => contexts thread = none ∧ starts task context
  | .went thread before _ | .yielded thread before => contexts thread = some before
  | .ended thread => contexts thread ≠ none

end Processors
