import Nachos.Syscall.Effects
import Nachos.Threads.Monitor

/-! What becomes of the threads that wait on an object when a user program destroys it. -/

namespace Nachos.Syscall

open Threads (Kernel Object Scheduled)

variable {console : Nat} {main : Thread} {os after : Os} {env : Env} {thread : Thread}
  {request : Request} {action : Action} {kernel : Kernel} {kind : Kind} {id : Int} {object : Nat}

/-- The call that destroys an object of a kind. -/
def Kind.destroy : Kind → Int → Request
  | .sem, id => .semDestroy id
  | .lock, id => .lockDestroy id
  | .cond, id => .condDestroy id

/-- Objects of different kinds, or with different addresses, are different. -/
theorem Kind.object_inj {other : Kind} {name : Nat} (same : kind.object object = other.object name) :
    kind = other ∧ object = name := by
  cases kind <;> cases other <;> simp_all [Kind.object]

/-- User programs have public objects only. -/
theorem Kind.isPublic (kind : Kind) (object : Nat) : (kind.object object).isPublic = true := by
  cases kind <;> rfl

/-- Every entry of a table is an object that is there, and has one entry. -/
structure Registered (os : Os) : Prop where
  live : ∀ kind id pointer, (os.table kind).entry id = some pointer →
    ∃ object, pointer = some object ∧ os.kernel.life (kind.object object) = .live
  once : ∀ kind first second object, (os.table kind).entry first = some (some object) →
    (os.table kind).entry second = some (some object) → first = second

/-- Entries stay good while no object of theirs is deleted. -/
theorem Registered.congr (registered : Registered os)
    (tables : ∀ kind, (after.table kind).entry = (os.table kind).entry)
    (lives : ∀ (kind : Kind) object, os.kernel.life (kind.object object) = .live →
      after.kernel.life (kind.object object) = .live) : Registered after := by
  constructor
  · intro kind id pointer used
    rw [tables] at used
    obtain ⟨object, rfl, live⟩ := registered.live kind id pointer used
    exact ⟨object, rfl, lives kind object live⟩
  · intro kind first second object here there
    rw [tables] at here there
    exact registered.once kind first second object here there

/-- A step of the kernel that deletes no such object keeps them all. -/
theorem lives_of_step {below : Threads.Action} (stepped : Threads.step os.kernel below = .ok kernel)
    (deletes : ∀ object, below ≠ .delete object) (kind : Kind) (object : Nat)
    (live : os.kernel.life (kind.object object) = .live) :
    kernel.life (kind.object object) = .live :=
  Threads.life_of_spares stepped (kind.isPublic object) (deletes _) live

/-- A new object was not there before, so no entry is about it. -/
theorem Registered.created {initial : Int} (registered : Registered os)
    (stepped : Threads.step os.kernel (.create (kind.object object) initial) = .ok kernel) :
    Registered ({ os with kernel := kernel }.setTable kind
      ((os.table kind).open_ (some object)).2) := by
  have unborn : os.kernel.life (kind.object object) = .unborn := by
    cases Threads.step_stepped stepped with
    | create current outside isPublic unborn => exact unborn
  have made : kernel = os.kernel.construct (kind.object object) initial := by
    cases Threads.step_stepped stepped with
    | create => rfl
  have lives := lives_of_step stepped (by simp)
  have same : ∀ other, ({ os with kernel := kernel } : Os).table other = os.table other := by
    intro other
    cases other <;> rfl
  have unused : ∀ id, (os.table kind).entry id ≠ some (some object) := by
    intro id used
    obtain ⟨found, equal, live⟩ := registered.live kind id _ used
    cases equal
    simp [unborn] at live
  have others : Registered { os with kernel := kernel } :=
    registered.congr (fun other => by rw [same]) lives
  by_cases full : (os.table kind).Full
  · -- A full table keeps its entries.
    refine others.congr (fun other => ?_) (by simp)
    rw [Os.setTable_table]
    split
    · rename_i equal
      rw [(ControlTable.open_of_full _ full).2, same, equal]
    · rfl
  · obtain ⟨inside, free, entries⟩ := ControlTable.open_of_not_full (some object) full
    constructor
    · intro other slot pointer used
      rw [Os.setTable_table] at used
      rw [Os.setTable_kernel]
      split at used
      · rename_i equal
        subst equal
        rw [entries] at used
        by_cases new : slot = ((os.table other).open_ (some object)).1
        · rw [new, Function.update_self, Option.some.injEq] at used
          exact ⟨object, used.symm, by simp [made]⟩
        · rw [Function.update_of_ne new] at used
          obtain ⟨found, rfl, live⟩ := registered.live other slot pointer used
          exact ⟨found, rfl, lives other found live⟩
      · rw [same] at used
        obtain ⟨found, rfl, live⟩ := registered.live other slot pointer used
        exact ⟨found, rfl, lives other found live⟩
    · intro other first second found here there
      rw [Os.setTable_table] at here there
      split at here
      · rename_i equal
        subst equal
        rw [if_pos rfl, entries] at there
        rw [entries] at here
        by_cases one : first = ((os.table other).open_ (some object)).1 <;>
          by_cases two : second = ((os.table other).open_ (some object)).1
        · rw [one, two]
        · rw [one, Function.update_self, Option.some.injEq, Option.some.injEq] at here
          rw [Function.update_of_ne two, ← here] at there
          exact (unused second there).elim
        · rw [two, Function.update_self, Option.some.injEq, Option.some.injEq] at there
          rw [Function.update_of_ne one, ← there] at here
          exact (unused first here).elim
        · rw [Function.update_of_ne one] at here
          rw [Function.update_of_ne two] at there
          exact registered.once other first second found here there
      · rename_i differ
        rw [if_neg differ] at there
        rw [same] at here there
        exact registered.once other first second found here there

/-- A destroyed object had one entry, which is gone. -/
theorem Registered.destroyed (registered : Registered os)
    (used : (os.table kind).entry id = some (some object))
    (stepped : Threads.step os.kernel (.delete (kind.object object)) = .ok kernel) :
    Registered ({ os with kernel := kernel }.setTable kind ((os.table kind).erase id)) := by
  have same : ∀ other, ({ os with kernel := kernel } : Os).table other = os.table other := by
    intro other
    cases other <;> rfl
  have entries : ((os.table kind).erase id).entry =
      Function.update (os.table kind).entry id none :=
    ControlTable.entry_erase (ControlTable.inTable_of_entry used)
  -- What is still in a table is another object.
  have kept : ∀ other slot found,
      (({ os with kernel := kernel }.setTable kind ((os.table kind).erase id)).table other).entry
        slot = some found → (os.table other).entry slot = some found ∧
          (found ≠ some object ∨ other ≠ kind) := by
    intro other slot found stored
    rw [Os.setTable_table] at stored
    split at stored
    · rename_i equal
      subst equal
      rw [entries] at stored
      have apart : slot ≠ id := by
        rintro rfl
        simp at stored
      rw [Function.update_of_ne apart] at stored
      refine ⟨stored, .inl ?_⟩
      rintro rfl
      exact apart (registered.once other slot id object stored used)
    · rename_i differ
      rw [same] at stored
      exact ⟨stored, .inr differ⟩
  constructor
  · intro other slot pointer stored
    rw [Os.setTable_kernel]
    obtain ⟨before, differ⟩ := kept other slot pointer stored
    obtain ⟨found, rfl, live⟩ := registered.live other slot pointer before
    refine ⟨found, rfl, Threads.life_of_spares stepped (other.isPublic found) ?_ live⟩
    intro equal
    obtain ⟨kinds, objects⟩ := Kind.object_inj (Threads.Action.delete.inj equal)
    rcases differ with differ | differ
    · exact differ (by rw [objects])
    · exact differ kinds.symm
  · intro other first second found here there
    exact registered.once other first second found (kept other first _ here).1
      (kept other second _ there).1

/--
The calls that leave threads behind on the queue of an object that they delete.

A thread that ends deletes the semaphore for those who joined it.
-/
def Os.orphans (os : Os) : Action → Prop
  | .syscall request _ =>
    (∃ pair ∈ request.destroys, ∃ pointer ∈ (os.table pair.1).entry pair.2, ∃ object ∈ pointer,
      os.kernel.queue (pair.1.object object) ≠ []) ∨
    request = .exit ∧ os.kernel.abandoned .finish ≠ none
  | _ => False

instance (os : Os) (action : Action) : Decidable (os.orphans action) :=
  match action with
  | .syscall _ _ => inferInstanceAs (Decidable (_ ∨ _))
  | .go _ | .resume | .yield | .interrupt _ | .dispatch => .isFalse not_false

/-- Nothing is lost by the system calls themselves. -/
theorem Registered.handled (registered : Registered os)
    (handled : Handled os env thread request after) : Registered after := by
  cases handled with
  | answered status keeps => exact registered.congr (by simp) (by simp)
  | stepped below steps deletes ends keeps =>
    exact registered.congr steps.tables (lives_of_step steps.stepped deletes)
  | created kind initial steps keeps => exact (registered.created steps).congr (by simp) (by simp)
  | destroyed kind id object destroys used steps keeps =>
    exact (registered.destroyed used steps).congr (by simp) (by simp)
  | leaked | registered | closed | shut =>
    refine registered.congr (fun kind => ?_) fun _ _ live => live
    cases kind <;> rfl

/-- A step of the kernel that is not about a queue that somebody is on. -/
theorem scheduled_below {below : Threads.Action} (scheduled : Scheduled (fun _ => False) os.kernel)
    (spared : os.kernel.abandoned below = none)
    (stepped : Threads.step os.kernel below = .ok kernel) : Scheduled (fun _ => False) kernel :=
  scheduled.step stepped (fun _ gone => gone) (by simp [spared])

/-- A system call that orphans nobody leaves every thread where its status says. -/
theorem scheduled_handled (scheduled : Scheduled (fun _ => False) os.kernel)
    (spared : ¬ os.orphans (.syscall request env))
    (handled : Handled os env thread request after) :
    Scheduled (fun _ => False) after.kernel := by
  cases handled with
  | answered | leaked | registered | closed | shut => exact scheduled
  | stepped below steps deletes ends keeps =>
    refine scheduled_below scheduled ?_ steps.stepped
    cases below with
    | delete object => exact (deletes object rfl).elim
    | finish =>
      have exits := ends rfl
      subst exits
      by_contra abandoned
      exact spared (.inr ⟨rfl, abandoned⟩)
    | call | resume | yield | fork | join | create | interrupt | dispatch => rfl
  | created kind initial steps keeps =>
    rw [Os.ret_kernel, Os.setTable_kernel]
    exact scheduled_below scheduled rfl steps
  | destroyed kind id object destroys used steps keeps =>
    rw [Os.ret_kernel, Os.setTable_kernel]
    have nobody : os.kernel.queue (kind.object object) = [] := by
      by_contra waiters
      exact spared (.inl ⟨_, destroys, _, used, object, rfl, waiters⟩)
    exact scheduled_below scheduled (by simp [Kernel.abandoned, nobody]) steps

/-- What is known in every run in which nobody is orphaned. -/
structure Safe (os : Os) : Prop where
  waits : os.Waits
  scheduled : Scheduled (fun _ => False) os.kernel
  registered : Registered os

/-- A step that orphans nobody keeps everybody safe. -/
theorem Safe.moved (safe : Safe os) (spared : ¬ os.orphans action)
    (moved : Moved console os action after) : Safe after := by
  refine ⟨safe.waits.moved moved, ?_, ?_⟩
  · cases moved with
    | handled caller free plain handled => exact scheduled_handled safe.scheduled spared handled
    | locked caller free uses stepped => exact scheduled_below safe.scheduled rfl stepped
    | unlocked status caller stepped => exact scheduled_below safe.scheduled rfl stepped
    | scheduled below plain silent stepped =>
      refine scheduled_below safe.scheduled ?_ stepped
      rcases plain with rfl | rfl | rfl | ⟨semaphore, rfl⟩ <;> rfl
  · cases moved with
    | handled caller free plain handled => exact safe.registered.handled handled
    | locked caller free uses stepped =>
      refine safe.registered.congr (fun kind => ?_) (lives_of_step stepped (by simp))
      cases kind <;> rfl
    | unlocked status caller stepped =>
      refine safe.registered.congr (fun kind => ?_) (lives_of_step stepped (by simp))
      cases kind <;> rfl
    | scheduled below plain silent stepped =>
      refine safe.registered.congr (fun kind => ?_) (lives_of_step stepped fun object => ?_)
      · cases kind <;> rfl
      · rcases plain with rfl | rfl | rfl | ⟨semaphore, rfl⟩ <;> simp

/-- Everybody is safe at first. -/
theorem safe_of_init (init : Init console main os) : Safe os := by
  refine ⟨init.waits, ?_, ?_, ?_⟩
  · refine init.booted.invariant (Scheduled fun _ => False)
      (fun _ boot => Threads.scheduled_boot boot) ?_
    intro kernel below after scheduled spared stepped
    exact scheduled.step stepped (fun _ gone => gone) (by simp [spared])
  · intro kind id pointer used
    obtain ⟨garbage, words, covers, made⟩ := init.tables kind
    simp [made, ControlTable.entry_new] at used
  · intro kind first second object here
    obtain ⟨garbage, words, covers, made⟩ := init.tables kind
    simp [made, ControlTable.entry_new] at here

/-- Everybody is safe in every run in which nobody is orphaned. -/
theorem safe_of_reachable
    (reached : Runs.Reachable (step console) (Init console main)
      (fun os action => ¬ os.orphans action) os) : Safe os := by
  refine reached.invariant Safe (fun os init => safe_of_init init) ?_
  intro os action after safe spared stepped
  exact safe.moved spared (moved_of_step safe.waits stepped)

/-- The call that destroys an object of a kind is handled in the same way for all kinds. -/
theorem handle_destroy (kind : Kind) (id : Int) :
    os.handle env thread (kind.destroy id) = os.destroyObject thread kind id := by
  cases kind <;> rfl

/-- An identifier in use can be destroyed, if its object is there. -/
theorem destroyObject_eq (used : (os.table kind).entry id = some (some object))
    (stepped : Threads.step os.kernel (.delete (kind.object object)) = .ok kernel) :
    os.destroyObject thread kind id =
      .ok (({ os with kernel := kernel }.setTable kind ((os.table kind).erase id)).ret thread 0) := by
  have inside := ControlTable.inTable_of_entry used
  have same : ({ os with kernel := kernel } : Os).table kind = os.table kind := by
    cases kind <;> rfl
  simp [Os.destroyObject, ControlTable.isOpened_eq, ControlTable.getObject_eq,
    ControlTable.close_eq, inside, used, same, Os.deref, Os.kernelStep, stepped, bind, Except.bind,
    pure, Except.pure]

/-- The running thread can delete an object that is there. -/
theorem step_delete (caller : os.kernel.caller = some thread)
    (live : os.kernel.life (kind.object object) = .live) :
    Threads.step os.kernel (.delete (kind.object object)) =
      .ok (os.kernel.destruct (kind.object object)) := by
  simp [Threads.step, caller, live, kind.isPublic object]

/-- A thread that may make system calls can destroy what is there. -/
theorem step_destroy (caller : os.kernel.caller = some thread) (free : os.pending thread = none)
    (used : (os.table kind).entry id = some (some object))
    (live : os.kernel.life (kind.object object) = .live) :
    step console os (.syscall (kind.destroy id) env) =
      .ok (({ os with kernel := os.kernel.destruct (kind.object object) }.setTable kind
        ((os.table kind).erase id)).ret thread 0) := by
  have plain : (kind.destroy id).usesConsole = false := by cases kind <;> rfl
  simp only [step, caller, free, if_true, plain, Bool.false_eq_true, if_false]
  rw [handle_destroy, destroyObject_eq used (step_delete caller live)]

/-- Everybody who was asleep on an object is about to run. -/
def Freed (os after : Os) (object : Object) : Prop :=
  ∀ waiter, os.kernel.status waiter = .blocked →
    (os.kernel.place waiter).object = some object → waiter ∈ after.kernel.readyList

/-- Deleting an object frees nobody, so it had better be that nobody waits. -/
theorem freed_iff {target : Object} (scheduled : Scheduled (fun _ => False) os.kernel)
    (ready : after.kernel.readyList = os.kernel.readyList) :
    Freed os after target ↔ os.kernel.queue target = [] := by
  constructor
  · intro freed
    refine List.eq_nil_iff_forall_not_mem.mpr fun waiter member => ?_
    obtain ⟨blocked, here, -⟩ := scheduled.queued waiter target member
    -- A thread on a queue is blocked, and those on the ready list are not.
    have listed := freed waiter blocked here
    rw [ready, scheduled.ready, blocked] at listed
    cases listed
  · intro empty waiter blocked here
    obtain ⟨found, there, member | gone⟩ := scheduled.waiting waiter blocked
      (fun finished => by simp [finished] at here)
    · rw [here, Option.some.injEq] at there
      simp [← there, empty] at member
    · exact gone.elim

/--
In every run in which no object is deleted while threads wait on it, every blocked thread is on the
queue of an object that is there; and a call that destroys an open identifier succeeds, and frees
those who were blocked on the object exactly when there were none.
-/
theorem destroy_frees_iff
    (reached : Runs.Reachable (step console) (Init console main)
      (fun os action => ¬ os.orphans action) os) :
    (∀ waiter, os.kernel.status waiter = .blocked → os.kernel.place waiter ≠ .finished →
      ∃ object, os.kernel.life object = .live ∧ waiter ∈ os.kernel.queue object) ∧
    ∀ kind id pointer thread env, os.kernel.caller = some thread → os.pending thread = none →
      (os.table kind).entry id = some pointer →
      ∃ object after, pointer = some object ∧
        step console os (.syscall (kind.destroy id) env) = .ok after ∧ after.result thread = 0 ∧
        (Freed os after (kind.object object) ↔ ¬ os.orphans (.syscall (kind.destroy id) env)) := by
  have safe := safe_of_reachable reached
  refine ⟨fun waiter blocked unfinished => ?_, ?_⟩
  · obtain ⟨object, -, member | gone⟩ := safe.scheduled.waiting waiter blocked unfinished
    · exact ⟨object, (safe.scheduled.queued waiter object member).2.2, member⟩
    · exact gone.elim
  · intro kind id pointer thread env caller free used
    obtain ⟨object, rfl, live⟩ := safe.registered.live kind id pointer used
    have destroys : (kind.destroy id).destroys = some (kind, id) := by cases kind <;> rfl
    have stays : kind.destroy id ≠ .exit := by cases kind <;> simp [Kind.destroy]
    refine ⟨object, _, rfl, step_destroy caller free used live, by simp [Os.ret], ?_⟩
    rw [freed_iff safe.scheduled (by simp [Kernel.destruct])]
    simp [Os.orphans, destroys, used, stays]

/-- A thread waits at a semaphore that another one then signals and destroys. -/
def signalAndDestroy : List Action :=
  [.syscall (.semCreate 0) { Env.quiet with object := 5 },
    .syscall .fork { Env.quiet with thread := 1 }, .yield, .syscall (.semWait 0) Env.quiet,
    .syscall (.semSignal 0) Env.quiet, .yield, .resume, .yield,
    .syscall (.semDestroy 0) Env.quiet]

/-- Nobody is left behind. -/
theorem destroy_frees_signalAndDestroy :
    ∃ os, Runs.run (step 0) firstOs signalAndDestroy = .ok os ∧
      os.kernel.life (.semaphore (.named 5)) = .deleted ∧
      ∀ waiter, os.kernel.status waiter = .blocked → os.kernel.place waiter ≠ .finished →
        ∃ object, os.kernel.life object = .live ∧ waiter ∈ os.kernel.queue object := by
  obtain ⟨os, ran, checked⟩ := Runs.exists_of_runsTo
    (show Runs.runsTo (step 0) firstOs signalAndDestroy (fun os =>
      os.kernel.life (.semaphore (.named 5)) = .deleted) = true by decide +kernel)
  have reached : Runs.Reachable (step 0) (Init 0 0) (fun os action => ¬ os.orphans action) os :=
    Runs.Reachable.extend (.start init_firstOs) (by decide +kernel) ran
  exact ⟨os, ran, by simpa using checked, (destroy_frees_iff reached).1⟩

/-- A thread waits at a semaphore. -/
def waitForOther : List Action :=
  [.syscall (.semCreate 0) { Env.quiet with object := 5 },
    .syscall .fork { Env.quiet with thread := 1 }, .yield, .syscall (.semWait 0) Env.quiet]

/-- If the semaphore is destroyed then, the thread stays blocked, and is on no queue any more. -/
theorem orphaned_waitForOther : Init 0 0 firstOs ∧
    ∃ os after, Runs.run (step 0) firstOs waitForOther = .ok os ∧
      step 0 os (.syscall (.semDestroy 0) Env.quiet) = .ok after ∧ after.result 0 = 0 ∧
      after.kernel.status 1 = .blocked ∧ after.kernel.place 1 = .inP (.named 5) ∧
      ¬ Freed os after (.semaphore (.named 5)) ∧ ∀ object, 1 ∉ after.kernel.queue object := by
  refine ⟨init_firstOs, ?_⟩
  obtain ⟨os, ran, checked⟩ := Runs.exists_of_runsTo
    (show Runs.runsTo (step 0) firstOs waitForOther (fun os =>
      os.kernel.caller = some 0 ∧ os.pending 0 = none ∧ os.kernel.status 1 = .blocked ∧
      os.kernel.place 1 = .inP (.named 5) ∧ os.semTable.entry 0 = some (some 5) ∧
      os.kernel.life (.semaphore (.named 5)) = .live ∧
      os.kernel.queue (.semaphore (.named 5)) = [1]) = true by decide +kernel)
  simp only [decide_eq_true_eq] at checked
  obtain ⟨caller, free, blocked, placed, used, live, queue⟩ := checked
  have reached : Runs.Reachable (step 0) (Init 0 0) (fun os action => ¬ os.orphans action) os :=
    Runs.Reachable.extend (.start init_firstOs) (by decide +kernel) ran
  have scheduled := (safe_of_reachable reached).scheduled
  have stepped : step 0 os (.syscall (Kind.sem.destroy 0) Env.quiet) = _ :=
    step_destroy caller free used live
  refine ⟨os, _, ran, stepped, rfl, blocked, placed, ?_, fun object member => ?_⟩
  · intro freed
    have empty := (freed_iff scheduled rfl).mp freed
    simp [queue] at empty
  · -- A thread is on the queue of the object it went to sleep at, and that one is empty now.
    have later : Scheduled (· = .semaphore (.named 5))
        (os.kernel.destruct (.semaphore (.named 5))) :=
      scheduled.destruct (fun _ gone => gone.elim) fun _ => rfl
    obtain ⟨-, here, alive⟩ := later.queued 1 object member
    have placed : (os.kernel.destruct (.semaphore (.named 5))).place 1 = .inP (.named 5) := placed
    rw [placed] at here
    cases here
    simp [Kernel.destruct] at alive

end Nachos.Syscall
