import Nachos.Syscall.Handlers

/-! What each system call does to the kernel, the tables and the host, once it is handled. -/

namespace Nachos.Syscall

open Threads (Kernel Object Call)

variable {os after : Os} {env : Env} {thread : Thread} {request : Request}

namespace Os

@[simp] theorem ret_kernel (os : Os) (thread : Thread) (status : Int) :
    (os.ret thread status).kernel = os.kernel := rfl

@[simp] theorem ret_fileTable (os : Os) (thread : Thread) (status : Int) :
    (os.ret thread status).fileTable = os.fileTable := rfl

@[simp] theorem ret_table (os : Os) (thread : Thread) (status : Int) (kind : Kind) :
    (os.ret thread status).table kind = os.table kind := by
  cases kind <;> rfl

@[simp] theorem ret_descriptors (os : Os) (thread : Thread) (status : Int) :
    (os.ret thread status).descriptors = os.descriptors := rfl

@[simp] theorem setTable_kernel (os : Os) (kind : Kind) (table : ControlTable (Option Nat)) :
    (os.setTable kind table).kernel = os.kernel := by
  cases kind <;> rfl

@[simp] theorem setTable_fileTable (os : Os) (kind : Kind) (table : ControlTable (Option Nat)) :
    (os.setTable kind table).fileTable = os.fileTable := by
  cases kind <;> rfl

@[simp] theorem setTable_descriptors (os : Os) (kind : Kind) (table : ControlTable (Option Nat)) :
    (os.setTable kind table).descriptors = os.descriptors := by
  cases kind <;> rfl

@[simp] theorem setTable_pending (os : Os) (kind : Kind) (table : ControlTable (Option Nat)) :
    (os.setTable kind table).pending = os.pending := by
  cases kind <;> rfl

@[simp] theorem ret_pending (os : Os) (thread : Thread) (status : Int) :
    (os.ret thread status).pending = os.pending := rfl

/-- Replacing one table leaves the others alone. -/
theorem setTable_table (os : Os) (kind other : Kind) (table : ControlTable (Option Nat)) :
    (os.setTable kind table).table other = if other = kind then table else os.table other := by
  cases kind <;> cases other <;> rfl

end Os

/-- The entry that a call destroys. -/
def Request.destroys : Request → Option (Kind × Int)
  | .semDestroy id => some (.sem, id)
  | .lockDestroy id => some (.lock, id)
  | .condDestroy id => some (.cond, id)
  | _ => none

/-- The calls that obtain a descriptor from the host. -/
def Request.obtains : Request → Bool
  | .create _ | .open_ _ | .socket _ _ | .accept _ => true
  | _ => false

/--
The calls that lose a host descriptor.

`Create` does not register the one it gets, no call registers one in a full table, and `Shutdown`
removes an entry without closing what it stands for.
-/
def Os.misplaces (os : Os) (env : Env) : Request → Prop
  | .create _ => env.answer ≠ -1
  | .open_ _ => env.answer ≠ -1 ∧ os.fileTable.Full
  | .socket family type => (family = 0 ∨ family = 1) ∧ (type = 0 ∨ type = 1) ∧
    env.answer ≠ -1 ∧ os.fileTable.Full
  | .accept fd => (os.fileTable.entry fd).isSome ∧ env.answer ≠ -1 ∧ os.fileTable.Full
  | .shutdown fd => ∃ descriptor ∈ os.fileTable.entry fd,
    (os.fileTable.entry descriptor).isSome
  | _ => False

instance (os : Os) (env : Env) (request : Request) : Decidable (os.misplaces env request) :=
  match request with
  | .create _ => inferInstanceAs (Decidable (_ ≠ _))
  | .open_ _ | .socket _ _ | .accept _ => inferInstanceAs (Decidable (_ ∧ _))
  | .shutdown fd => inferInstanceAs (Decidable (∃ descriptor ∈ os.fileTable.entry fd,
      (os.fileTable.entry descriptor).isSome = true))
  | .exit | .exec _ | .join _ | .write _ _ _ | .read _ _ _ | .close _ | .fork | .semCreate _
  | .semDestroy _ | .semSignal _ | .semWait _ | .lockCreate | .lockDestroy _ | .lockAcquire _
  | .lockRelease _ | .condCreate | .condDestroy _ | .condSignal _ _ | .condWait _ _
  | .condBroadcast _ _ | .connect _ _ | .bind _ | .listen _ => .isFalse id

/-- The kernel takes a step, and the tables keep their entries. -/
structure Stepped (os : Os) (action : Threads.Action) (after : Os) : Prop where
  stepped : Threads.step os.kernel action = .ok after.kernel
  files : after.fileTable.entry = os.fileTable.entry
  tables : ∀ kind, (after.table kind).entry = (os.table kind).entry
  descriptors : after.descriptors = os.descriptors
  pending : after.pending = os.pending

/-- What it means to handle a system call. -/
inductive Handled (os : Os) (env : Env) (thread : Thread) : Request → Os → Prop
  /-- Nothing but an answer. -/
  | answered {request : Request} (status : Int) (keeps : ¬ os.misplaces env request) :
      Handled os env thread request (os.ret thread status)
  /-- A step of the kernel that deletes no object of a user program. -/
  | stepped {request : Request} {after : Os} (action : Threads.Action)
      (steps : Stepped os action after) (deletes : ∀ object, action ≠ .delete object)
      (ends : action = .finish → request = .exit) (keeps : ¬ os.misplaces env request) :
      Handled os env thread request after
  /-- A new object, and perhaps its entry. -/
  | created {request : Request} {kernel : Kernel} (kind : Kind) (initial : Int)
      (steps : Threads.step os.kernel (.create (kind.object env.object) initial) = .ok kernel)
      (keeps : ¬ os.misplaces env request) :
      Handled os env thread request
        (({ os with kernel := kernel }.setTable kind
          ((os.table kind).open_ (some env.object)).2).ret thread
            ((os.table kind).open_ (some env.object)).1)
  /-- An object less, and its entry. -/
  | destroyed {request : Request} {kernel : Kernel} (kind : Kind) (id : Int) (object : Nat)
      (destroys : request.destroys = some (kind, id))
      (used : (os.table kind).entry id = some (some object))
      (steps : Threads.step os.kernel (.delete (kind.object object)) = .ok kernel)
      (keeps : ¬ os.misplaces env request) :
      Handled os env thread request
        (({ os with kernel := kernel }.setTable kind ((os.table kind).erase id)).ret thread 0)
  /-- A host descriptor that is not registered. -/
  | leaked {request : Request} (obtains : request.obtains = true) (valid : env.answer ≠ -1)
      (leaks : os.misplaces env request) :
      Handled os env thread request ({ os with
        descriptors := insert env.answer os.descriptors }.ret thread env.answer)
  /-- A host descriptor that is registered, unless the table is full. -/
  | registered {request : Request} (obtains : request.obtains = true) (valid : env.answer ≠ -1)
      (full : os.misplaces env request ↔ os.fileTable.Full) :
      Handled os env thread request (os.register thread env.answer)
  /-- A host descriptor that is closed, with its entry. -/
  | closed {request : Request} (fd descriptor : Int)
      (used : os.fileTable.entry fd = some descriptor) (keeps : ¬ os.misplaces env request) :
      Handled os env thread request ({ os with
        fileTable := os.fileTable.erase fd
        descriptors := os.descriptors.erase descriptor }.ret thread descriptor)
  /-- An entry that is erased because its number is that of a host descriptor. -/
  | shut {request : Request} (fd descriptor status : Int)
      (used : os.fileTable.entry fd = some descriptor)
      (other : (os.fileTable.entry descriptor).isSome) (loses : os.misplaces env request) :
      Handled os env thread request ({ os with
        fileTable := os.fileTable.erase descriptor }.ret thread status)

/-- A step of the kernel that succeeds. -/
theorem kernelStep_eq_ok {action : Threads.Action} (done : os.kernelStep action = .ok after) :
    ∃ kernel, Threads.step os.kernel action = .ok kernel ∧ after = { os with kernel := kernel } := by
  obtain ⟨kernel, stepped, made⟩ := Runs.bind_eq_ok.mp done
  exact ⟨kernel, stepped, (Except.ok.inj made).symm⟩

/-- A table that was asked for an identifier says whether it is in use. -/
theorem isOpened_eq_ok {α : Type} {table : ControlTable α} {id : Int} {opened : Bool}
    (asked : table.isOpened id = .ok opened) :
    ControlTable.inTable id = true ∧ opened = (table.entry id).isSome := by
  rw [ControlTable.isOpened_eq] at asked
  split at asked
  · exact ⟨‹_›, (Except.ok.inj asked).symm⟩
  · cases asked

/-- A pointer that could be followed points to something. -/
theorem deref_eq_ok {α : Type} {id : Int} {pointer : Option (Option α)} {object : α}
    (followed : Os.deref id pointer = .ok object) : pointer = some (some object) := by
  unfold Os.deref at followed
  split at followed
  · rw [Except.ok.inj followed]
  · cases followed

/-- A handler looks a descriptor up before it goes on. -/
theorem useDescriptor_eq_ok {fd : Int} {proceed : Int → Except Fault Os}
    (done : os.useDescriptor thread fd proceed = .ok after) :
    (os.fileTable.entry fd = none ∧ after = os.ret thread (-1)) ∨
      ∃ descriptor, os.fileTable.entry fd = some descriptor ∧ proceed descriptor = .ok after := by
  obtain ⟨opened, asked, rest⟩ := Runs.bind_eq_ok.mp done
  obtain ⟨inside, rfl⟩ := isOpened_eq_ok asked
  cases used : os.fileTable.entry fd with
  | none =>
    simp only [used, Option.isSome_none, Bool.false_eq_true, if_false] at rest
    exact .inl ⟨rfl, (Except.ok.inj rest).symm⟩
  | some descriptor =>
    simp only [used, Option.isSome_some, if_true, ControlTable.getObject_eq, if_pos inside] at rest
    exact .inr ⟨descriptor, rfl, rest⟩

/-- A handler that uses one object calls its primitive, or answers -1. -/
theorem useObject_eq_ok {kind : Kind} {id : Int} {call : Nat → Call}
    (done : os.useObject thread kind id call = .ok after) :
    after = os.ret thread (-1) ∨ ∃ object kernel,
      Threads.step os.kernel (.call (call object)) = .ok kernel ∧
        after = { os with kernel := kernel }.ret thread 0 := by
  obtain ⟨opened, asked, rest⟩ := Runs.bind_eq_ok.mp done
  cases opened with
  | false =>
    simp only [Bool.false_eq_true, if_false] at rest
    exact .inl (Except.ok.inj rest).symm
  | true =>
    simp only [if_true] at rest
    obtain ⟨pointer, -, rest⟩ := Runs.bind_eq_ok.mp rest
    obtain ⟨object, -, rest⟩ := Runs.bind_eq_ok.mp rest
    obtain ⟨middle, called, rest⟩ := Runs.bind_eq_ok.mp rest
    obtain ⟨kernel, stepped, rfl⟩ := kernelStep_eq_ok called
    exact .inr ⟨object, kernel, stepped, (Except.ok.inj rest).symm⟩

/-- A handler that uses a condition and a lock calls the primitive, or answers -1. -/
theorem useCondition_eq_ok {cond lock : Int} {call : Nat → Nat → Call}
    (done : os.useCondition thread cond lock call = .ok after) :
    after = os.ret thread (-1) ∨ ∃ condition held kernel,
      Threads.step os.kernel (.call (call condition held)) = .ok kernel ∧
        after = { os with kernel := kernel }.ret thread 0 := by
  obtain ⟨opened, -, rest⟩ := Runs.bind_eq_ok.mp done
  cases opened with
  | false =>
    simp only [Bool.false_eq_true, if_false] at rest
    exact .inl (Except.ok.inj rest).symm
  | true =>
    simp only [if_true] at rest
    obtain ⟨both, -, rest⟩ := Runs.bind_eq_ok.mp rest
    cases both with
    | false =>
      simp only [Bool.false_eq_true, if_false] at rest
      exact .inl (Except.ok.inj rest).symm
    | true =>
      simp only [if_true] at rest
      obtain ⟨_, -, rest⟩ := Runs.bind_eq_ok.mp rest
      obtain ⟨held, -, rest⟩ := Runs.bind_eq_ok.mp rest
      obtain ⟨_, -, rest⟩ := Runs.bind_eq_ok.mp rest
      obtain ⟨condition, -, rest⟩ := Runs.bind_eq_ok.mp rest
      obtain ⟨middle, called, rest⟩ := Runs.bind_eq_ok.mp rest
      obtain ⟨kernel, stepped, rfl⟩ := kernelStep_eq_ok called
      exact .inr ⟨condition, held, kernel, stepped, (Except.ok.inj rest).symm⟩

/-- A handler that creates an object registers it. -/
theorem createObject_eq_ok {kind : Kind} {initial : Int}
    (done : os.createObject env thread kind initial = .ok after) :
    ∃ kernel, Threads.step os.kernel (.create (kind.object env.object) initial) = .ok kernel ∧
      after = ({ os with kernel := kernel }.setTable kind
        ((os.table kind).open_ (some env.object)).2).ret thread
          ((os.table kind).open_ (some env.object)).1 := by
  obtain ⟨middle, made, rest⟩ := Runs.bind_eq_ok.mp done
  obtain ⟨kernel, stepped, rfl⟩ := kernelStep_eq_ok made
  refine ⟨kernel, stepped, ?_⟩
  cases kind <;> exact (Except.ok.inj rest).symm

/-- A handler that destroys an object erases its entry, or answers -1. -/
theorem destroyObject_eq_ok {kind : Kind} {id : Int}
    (done : os.destroyObject thread kind id = .ok after) :
    after = os.ret thread (-1) ∨ ∃ object kernel,
      (os.table kind).entry id = some (some object) ∧
      Threads.step os.kernel (.delete (kind.object object)) = .ok kernel ∧
        after = ({ os with kernel := kernel }.setTable kind ((os.table kind).erase id)).ret
          thread 0 := by
  obtain ⟨opened, asked, rest⟩ := Runs.bind_eq_ok.mp done
  obtain ⟨inside, rfl⟩ := isOpened_eq_ok asked
  cases used : (os.table kind).entry id with
  | none =>
    simp only [used, Option.isSome_none, Bool.false_eq_true, if_false] at rest
    exact .inl (Except.ok.inj rest).symm
  | some pointer =>
    simp only [used, Option.isSome_some, if_true, ControlTable.getObject_eq, if_pos inside] at rest
    obtain ⟨found, got, rest⟩ := Runs.bind_eq_ok.mp rest
    cases got
    obtain ⟨object, followed, rest⟩ := Runs.bind_eq_ok.mp rest
    obtain ⟨middle, deleted, rest⟩ := Runs.bind_eq_ok.mp rest
    obtain ⟨kernel, stepped, rfl⟩ := kernelStep_eq_ok deleted
    have same : ({ os with kernel := kernel } : Os).table kind = os.table kind := by
      cases kind <;> rfl
    simp only [same, ControlTable.close_eq, if_pos inside, used, Option.isSome_some,
      if_true] at rest
    exact .inr ⟨object, kernel, deref_eq_ok followed, stepped, (Except.ok.inj rest).symm⟩

/-- What `ret` does not change. -/
theorem Stepped.ret {action : Threads.Action} (steps : Stepped os action after) (status : Int) :
    Stepped os action (after.ret thread status) :=
  ⟨steps.stepped, steps.files, fun kind => by simpa using steps.tables kind, steps.descriptors,
    steps.pending⟩

/-- A primitive or `Join` is a step of the kernel and nothing else. -/
theorem stepped_kernel {action : Threads.Action} {kernel : Kernel}
    (stepped : Threads.step os.kernel action = .ok kernel) :
    Stepped os action { os with kernel := kernel } := by
  refine ⟨stepped, rfl, fun kind => ?_, rfl, rfl⟩
  cases kind <;> rfl

/-- The calls that use one object. -/
theorem handled_useObject {kind : Kind} {id : Int} {call : Nat → Call}
    (done : os.useObject thread kind id call = .ok after) (keeps : ¬ os.misplaces env request) :
    Handled os env thread request after := by
  rcases useObject_eq_ok done with rfl | ⟨object, kernel, stepped, rfl⟩
  · exact .answered (-1) keeps
  · exact .stepped _ ((stepped_kernel stepped).ret 0) (by simp) (by simp) keeps

/-- The calls that use a condition and a lock. -/
theorem handled_useCondition {cond lock : Int} {call : Nat → Nat → Call}
    (done : os.useCondition thread cond lock call = .ok after)
    (keeps : ¬ os.misplaces env request) : Handled os env thread request after := by
  rcases useCondition_eq_ok done with rfl | ⟨condition, held, kernel, stepped, rfl⟩
  · exact .answered (-1) keeps
  · exact .stepped _ ((stepped_kernel stepped).ret 0) (by simp) (by simp) keeps

/-- The calls that create an object. -/
theorem handled_createObject {kind : Kind} {initial : Int}
    (done : os.createObject env thread kind initial = .ok after)
    (keeps : ¬ os.misplaces env request) : Handled os env thread request after := by
  obtain ⟨kernel, stepped, rfl⟩ := createObject_eq_ok done
  exact .created kind initial stepped keeps

/-- The calls that destroy an object. -/
theorem handled_destroyObject {kind : Kind} {id : Int}
    (done : os.destroyObject thread kind id = .ok after)
    (destroys : request.destroys = some (kind, id)) (keeps : ¬ os.misplaces env request) :
    Handled os env thread request after := by
  rcases destroyObject_eq_ok done with rfl | ⟨object, kernel, used, stepped, rfl⟩
  · exact .answered (-1) keeps
  · exact .destroyed kind id object destroys used stepped keeps

/-- `Write` only answers once it has the host's descriptor. -/
theorem answered_write {descriptor buffer size : Int}
    (done : os.writeTo env thread buffer size descriptor = .ok after) :
    ∃ status, after = os.ret thread status := by
  unfold Os.writeTo at done
  split at done
  · cases done
  · obtain ⟨-, -, rest⟩ := Runs.bind_eq_ok.mp done
    exact ⟨_, (Except.ok.inj rest).symm⟩

/-- So does `Read`. -/
theorem answered_read {buffer size : Int}
    (done : os.readFrom env thread buffer size = .ok after) :
    ∃ status, after = os.ret thread status := by
  unfold Os.readFrom at done
  split at done
  · cases done
  · split at done
    · exact ⟨_, (Except.ok.inj done).symm⟩
    · obtain ⟨-, -, rest⟩ := Runs.bind_eq_ok.mp done
      exact ⟨_, (Except.ok.inj rest).symm⟩

/-- The calls that only answer once they have the host's descriptor. -/
theorem handled_transfer {fd : Int} {proceed : Int → Except Fault Os}
    (done : os.useDescriptor thread fd proceed = .ok after) (keeps : ¬ os.misplaces env request)
    (answers : ∀ descriptor, proceed descriptor = .ok after → ∃ status, after = os.ret thread status) :
    Handled os env thread request after := by
  rcases useDescriptor_eq_ok done with ⟨-, rfl⟩ | ⟨descriptor, -, proceeded⟩
  · exact .answered (-1) keeps
  · obtain ⟨status, rfl⟩ := answers descriptor proceeded
    exact .answered status keeps

/-- Every system call that succeeds does one of these things. -/
theorem handled_of_handle (done : os.handle env thread request = .ok after) :
    Handled os env thread request after := by
  cases request with
  | exit =>
    obtain ⟨middle, removed, finished⟩ := Runs.bind_eq_ok.mp done
    obtain ⟨pair, -, rest⟩ := Runs.bind_eq_ok.mp removed
    cases rest
    obtain ⟨kernel, stepped, rfl⟩ := kernelStep_eq_ok finished
    refine .stepped .finish ⟨stepped, rfl, fun kind => ?_, rfl, rfl⟩ (by simp) (fun _ => rfl) id
    cases kind <;> rfl
  | exec name =>
    obtain ⟨-, -, rest⟩ := Runs.bind_eq_ok.mp done
    split at rest
    · obtain ⟨middle, forked, rest⟩ := Runs.bind_eq_ok.mp rest
      obtain ⟨kernel, stepped, rfl⟩ := kernelStep_eq_ok forked
      cases rest
      refine .stepped (.fork env.thread) ⟨stepped, rfl, fun kind => ?_, rfl, rfl⟩ (by simp) (by simp) id
      cases kind <;> rfl
    · cases rest
      exact .answered (-1) id
  | join joined =>
    obtain ⟨opened, -, rest⟩ := Runs.bind_eq_ok.mp done
    split at rest
    · obtain ⟨pointer, -, rest⟩ := Runs.bind_eq_ok.mp rest
      obtain ⟨object, -, rest⟩ := Runs.bind_eq_ok.mp rest
      obtain ⟨middle, called, rest⟩ := Runs.bind_eq_ok.mp rest
      obtain ⟨kernel, stepped, rfl⟩ := kernelStep_eq_ok called
      cases rest
      exact .stepped _ ((stepped_kernel stepped).ret _) (by simp) (by simp) id
    · cases rest
      exact .answered (-1) id
  | create buffer =>
    obtain ⟨-, -, rest⟩ := Runs.bind_eq_ok.mp done
    cases rest
    by_cases failed : env.answer = -1
    · simp only [failed, if_true]
      exact .answered (-1) (by simp [Os.misplaces, failed])
    · simp only [failed, if_false]
      exact .leaked rfl failed failed
  | open_ buffer =>
    obtain ⟨-, -, rest⟩ := Runs.bind_eq_ok.mp done
    cases rest
    split
    · rename_i failed
      exact .answered (-1) (by simp [Os.misplaces, failed])
    · rename_i valid
      exact .registered rfl valid (by simp [Os.misplaces, valid])
  | write buffer size fd =>
    simp only [Os.handle, Os.nachOSWrite] at done
    split at done
    · cases done
      exact .answered (-1) id
    · exact handled_transfer done id fun _ proceeded => answered_write proceeded
  | read buffer size fd =>
    simp only [Os.handle, Os.nachOSRead] at done
    split at done
    · cases done
      exact .answered (-1) id
    · exact handled_transfer done id fun _ proceeded => answered_read proceeded
  | close fd =>
    rcases useDescriptor_eq_ok done with ⟨-, rfl⟩ | ⟨descriptor, used, proceeded⟩
    · exact .answered (-1) id
    · rw [ControlTable.close_eq, if_pos (ControlTable.inTable_of_entry used)] at proceeded
      simp only [used, Option.isSome_some, if_true] at proceeded
      cases proceeded
      exact .closed fd descriptor used id
  | fork =>
    obtain ⟨kernel, stepped, rfl⟩ := kernelStep_eq_ok done
    refine .stepped (.fork env.thread) ⟨stepped, rfl, fun kind => ?_, rfl, rfl⟩ (by simp) (by simp) id
    cases kind <;> rfl
  | semCreate | lockCreate | condCreate => exact handled_createObject done id
  | semDestroy id | lockDestroy id | condDestroy id =>
    exact handled_destroyObject done rfl not_false
  | semSignal | semWait | lockAcquire | lockRelease => exact handled_useObject done id
  | condSignal | condWait | condBroadcast => exact handled_useCondition done id
  | socket family type =>
    cases done
    unfold Os.nachOSSocket
    split
    · rename_i valid
      exact .registered rfl valid.2.2 (by simp [Os.misplaces, valid])
    · rename_i refused
      exact .answered (-1) fun misplaced => refused ⟨misplaced.1, misplaced.2.1, misplaced.2.2.1⟩
  | connect fd host =>
    obtain ⟨-, -, rest⟩ := Runs.bind_eq_ok.mp done
    obtain ⟨opened, -, rest⟩ := Runs.bind_eq_ok.mp rest
    split at rest <;> (cases rest; exact .answered _ id)
  | bind fd | listen fd =>
    exact handled_transfer done id fun _ proceeded => ⟨_, (Except.ok.inj proceeded).symm⟩
  | accept fd =>
    rcases useDescriptor_eq_ok done with ⟨unused, rfl⟩ | ⟨descriptor, used, proceeded⟩
    · exact .answered (-1) (by simp [Os.misplaces, unused])
    · cases proceeded
      split
      · rename_i failed
        exact .answered (-1) (by simp [Os.misplaces, failed])
      · rename_i valid
        exact .registered rfl valid (by simp [Os.misplaces, valid, used])
  | shutdown fd =>
    rcases useDescriptor_eq_ok done with ⟨unused, rfl⟩ | ⟨descriptor, used, proceeded⟩
    · exact .answered (-1) (by simp [Os.misplaces, unused])
    · rw [ControlTable.close_eq] at proceeded
      split at proceeded
      · cases other : os.fileTable.entry descriptor with
        | none =>
          simp only [other, Option.isSome_none, Bool.false_eq_true, if_false] at proceeded
          cases proceeded
          exact .answered _ (by simp [Os.misplaces, used, other])
        | some lost =>
          simp only [other, Option.isSome_some, if_true] at proceeded
          cases proceeded
          exact .shut fd descriptor _ used (by simp [other]) (by simp [Os.misplaces, used, other])
      · cases proceeded

/-- `Read` and `Write` do nothing but answer while the console is locked. -/
theorem answered_of_usesConsole (uses : request.usesConsole = true)
    (done : os.handle env thread request = .ok after) :
    ∃ status, after = os.ret thread status := by
  cases request with
  | write buffer size fd =>
    simp only [Os.handle, Os.nachOSWrite] at done
    split at done
    · exact ⟨_, (Except.ok.inj done).symm⟩
    · rcases useDescriptor_eq_ok done with ⟨-, rfl⟩ | ⟨descriptor, -, proceeded⟩
      · exact ⟨_, rfl⟩
      · exact answered_write proceeded
  | read buffer size fd =>
    simp only [Os.handle, Os.nachOSRead] at done
    split at done
    · exact ⟨_, (Except.ok.inj done).symm⟩
    · rcases useDescriptor_eq_ok done with ⟨-, rfl⟩ | ⟨descriptor, -, proceeded⟩
      · exact ⟨_, rfl⟩
      · exact answered_read proceeded
  | _ => cases uses

/-- What happens in a step. -/
inductive Moved (console : Nat) (os : Os) : Action → Os → Prop
  /-- A system call is handled at once. -/
  | handled {request : Request} {env : Env} {thread : Thread} {after : Os}
      (caller : os.kernel.caller = some thread) (free : os.pending thread = none)
      (plain : request.usesConsole = false) (handled : Handled os env thread request after) :
      Moved console os (.syscall request env) after
  /-- `Read` and `Write` lock the console first. -/
  | locked {request : Request} {env : Env} {thread : Thread} {kernel : Kernel}
      (caller : os.kernel.caller = some thread) (free : os.pending thread = none)
      (uses : request.usesConsole = true)
      (stepped : Threads.step os.kernel (.call (.lockMutex console)) = .ok kernel) :
      Moved console os (.syscall request env) { os with
        kernel := kernel
        pending := Function.update os.pending thread (some request) }
  /-- They answer when they unlock it. -/
  | unlocked {env : Env} {thread : Thread} {kernel : Kernel} (status : Int)
      (caller : os.kernel.caller = some thread)
      (stepped : Threads.step os.kernel (.call (.unlockMutex console)) = .ok kernel) :
      Moved console os (.go env) { os.ret thread status with
        kernel := kernel
        pending := Function.update os.pending thread none }
  /-- The kernel goes on without a system call. -/
  | scheduled {action : Action} {kernel : Kernel} (below : Threads.Action)
      (plain : below = .resume ∨ below = .yield ∨ below = .dispatch ∨
        ∃ semaphore, below = .interrupt semaphore)
      (silent : ∀ request env, action ≠ .syscall request env)
      (stepped : Threads.step os.kernel below = .ok kernel) :
      Moved console os action { os with kernel := kernel }

/-- Threads go on behind `canAccessConsole->Lock()` in `Read` and `Write` only. -/
def Os.Waits (os : Os) : Prop :=
  ∀ thread request, os.pending thread = some request → request.usesConsole = true

/-- A step that succeeds is one of these. -/
theorem moved_of_step {console : Nat} {action : Action} (waits : os.Waits)
    (stepped : step console os action = .ok after) : Moved console os action after := by
  cases action with
  | syscall request env =>
    simp only [step] at stepped
    split at stepped
    · cases stepped
    · rename_i thread caller
      split at stepped
      · rename_i free
        split at stepped
        · rename_i uses
          obtain ⟨middle, locked, rest⟩ := Runs.bind_eq_ok.mp stepped
          obtain ⟨kernel, below, rfl⟩ := kernelStep_eq_ok locked
          cases rest
          exact .locked caller free uses below
        · rename_i plain
          exact .handled caller free (by simpa using plain) (handled_of_handle stepped)
      · cases stepped
  | go env =>
    simp only [step] at stepped
    split at stepped
    · cases stepped
    · rename_i thread caller
      split at stepped
      · cases stepped
      · rename_i request pending
        obtain ⟨middle, handled, rest⟩ := Runs.bind_eq_ok.mp stepped
        obtain ⟨status, rfl⟩ := answered_of_usesConsole (waits thread request pending) handled
        obtain ⟨last, unlocked, rest⟩ := Runs.bind_eq_ok.mp rest
        obtain ⟨kernel, below, rfl⟩ := kernelStep_eq_ok unlocked
        cases rest
        exact .unlocked status caller below
  | resume =>
    obtain ⟨kernel, below, rfl⟩ := kernelStep_eq_ok stepped
    exact .scheduled .resume (by simp) (by simp) below
  | yield =>
    obtain ⟨kernel, below, rfl⟩ := kernelStep_eq_ok stepped
    exact .scheduled .yield (by simp) (by simp) below
  | interrupt semaphore =>
    obtain ⟨kernel, below, rfl⟩ := kernelStep_eq_ok stepped
    exact .scheduled (.interrupt semaphore) (by simp) (by simp) below
  | dispatch =>
    obtain ⟨kernel, below, rfl⟩ := kernelStep_eq_ok stepped
    exact .scheduled .dispatch (by simp) (by simp) below

/-- What a thread goes on with behind `canAccessConsole->Lock()` stays `Read` or `Write`. -/
theorem Os.Waits.moved {console : Nat} {action : Action} (waits : os.Waits) (moved : Moved console os action after) :
    after.Waits := by
  cases moved with
  | handled caller free plain handled =>
    have same : after.pending = os.pending := by
      cases handled with
      | stepped action steps deletes ends keeps => exact steps.pending
      | created | destroyed => simp
      | answered | leaked | registered | closed | shut => rfl
    intro thread request pending
    exact waits thread request (same ▸ pending)
  | @locked request env thread kernel caller free uses stepped =>
    intro other pending going
    by_cases same : other = thread
    · simp only [same, Function.update_self, Option.some.injEq] at going
      exact going ▸ uses
    · simp only [Function.update_of_ne same] at going
      exact waits other pending going
  | @unlocked env thread kernel status caller stepped =>
    intro other pending going
    by_cases same : other = thread
    · simp [same] at going
    · simp only [Function.update_of_ne same] at going
      exact waits other pending going
  | scheduled below plain silent stepped => exact waits

/-- A run begins outside of `Read` and `Write`. -/
theorem Init.waits {console : Nat} {main : Thread} (init : Init console main os) : os.Waits := by
  intro thread request pending
  simp [init.idle] at pending

/-- The allocator has nothing left, and the host refuses everything. -/
def Env.quiet : Env where
  load := fun _ => .ok 0
  store := fun _ => .ok ()
  answer := -1
  parsed := 0
  executable := false
  thread := 0
  object := 0

/-- The first process, in a kernel that has nothing but the mutex of the console. -/
def firstOs : Os where
  kernel := Threads.firstKernel.construct (.mutex 0) 0
  fileTable := (((((ControlTable.new 25 (fun _ => 0) (List.replicate 4 0) (by decide)).open_ 0).2
    ).open_ 1).2.open_ 2).2
  threadTable := ((ControlTable.new 12 (fun _ => none) (List.replicate 4 0) (by decide)).open_
    (some 0)).2
  semTable := .new 12 (fun _ => none) (List.replicate 4 0) (by decide)
  lockTable := .new 12 (fun _ => none) (List.replicate 4 0) (by decide)
  condTable := .new 12 (fun _ => none) (List.replicate 4 0) (by decide)
  result := fun _ => 0
  pending := fun _ => none
  descriptors := {0, 1, 2}

/-- The constructor of the mutex has run. -/
theorem booted_firstOs : Runs.Reachable Threads.step (Threads.Boot · 0)
    (fun kernel action => kernel.abandoned action = none) firstOs.kernel := by
  have made : Threads.step Threads.firstKernel (.create (.mutex 0) 0) = .ok firstOs.kernel := rfl
  exact .next (.start Threads.boot_firstKernel) rfl made

/-- It starts as `StartProcess` leaves it. -/
theorem init_firstOs : Init 0 0 firstOs where
  booted := booted_firstOs
  console := rfl
  files := ⟨fun _ => 0, List.replicate 4 0, by decide, rfl⟩
  threads := ⟨fun _ => none, List.replicate 4 0, by decide, rfl⟩
  tables := fun kind => by
    cases kind <;> exact ⟨fun _ => none, List.replicate 4 0, by decide, rfl⟩
  idle := fun _ => rfl
  descriptors := rfl

end Nachos.Syscall
