import Nachos.Syscall.Effects

/-! What `Open` and the system calls built on it do with a table that has no room. -/

namespace Nachos.Syscall

open Threads (Kernel Life)

/-- The table that the call would put its new entry in has no room for it. -/
def Os.exhausted (os : Os) : Request → Prop
  | .open_ _ | .socket _ _ | .accept _ => os.fileTable.Full
  | .exec _ | .fork => os.threadTable.Full
  | .semCreate _ => os.semTable.Full
  | .lockCreate => os.lockTable.Full
  | .condCreate => os.condTable.Full
  | .exit | .join _ | .create _ | .write _ _ _ | .read _ _ _ | .close _ | .semDestroy _
  | .semSignal _ | .semWait _ | .lockDestroy _ | .lockAcquire _ | .lockRelease _ | .condDestroy _
  | .condSignal _ _ | .condWait _ _ | .condBroadcast _ _ | .connect _ _ | .bind _ | .listen _
  | .shutdown _ => False

/-- The five tables of one state are those of another, down to the memory around their arrays. -/
structure SameTables (os after : Os) : Prop where
  files : after.fileTable = os.fileTable
  threads : after.threadTable = os.threadTable
  tables : ∀ kind, after.table kind = os.table kind

/-- The call returns, reports -1, and leaves every table as it was. -/
def TurnsDown (os : Os) (env : Env) (thread : Thread) (request : Request) : Prop :=
  ∃ after, os.handle env thread request = .ok after ∧ after.result thread = -1 ∧
    SameTables os after

/--
The call does not get as far as `ControlTable::Open`, or stores there what is there already.

What is there is the memory in front of the array, which `Open` reaches with the index -1.
-/
def Os.spares (os : Os) (env : Env) : Request → Prop
  | .open_ buffer => readMem env.load buffer bufferSize = .ok () ∧
    (env.answer ≠ -1 → os.fileTable.openObjects (-1) = env.answer)
  | .socket family type =>
    (family = 0 ∨ family = 1) ∧ (type = 0 ∨ type = 1) ∧ env.answer ≠ -1 →
      os.fileTable.openObjects (-1) = env.answer
  | .accept fd => ControlTable.inTable fd = true ∧
    ((os.fileTable.entry fd).isSome → env.answer ≠ -1 →
      os.fileTable.openObjects (-1) = env.answer)
  | .exec name => readMem env.load name bufferSize = .ok () ∧ env.executable = false
  | .semCreate _ => os.semTable.openObjects (-1) = some env.object
  | .lockCreate => os.lockTable.openObjects (-1) = some env.object
  | .condCreate => os.condTable.openObjects (-1) = some env.object
  | _ => False

section

variable {os after : Os} {env : Env} {thread : Thread} {request : Request} {descriptor : Int}

/-- A full table writes in front of its array, and nowhere else. -/
theorem ControlTable.open_snd_of_full {α : Type} {table : ControlTable α} (object : α)
    (full : table.Full) : (table.open_ object).2 =
      { table with openObjects := Function.update table.openObjects (-1) object } := by
  unfold open_
  -- The map has no clear bit, so `Find` answers -1 and the array is written at that index.
  split
  · rfl
  · rename_i found
    rw [full] at found
    cases found

/-- It stays as it was exactly when the object is in front of its array already. -/
theorem ControlTable.open_snd_iff {α : Type} {table : ControlTable α} (object : α)
    (full : table.Full) : (table.open_ object).2 = table ↔ table.openObjects (-1) = object := by
  rw [open_snd_of_full object full]
  -- If the table is the same, so is the cell in front of its array.
  constructor
  · intro same
    have written : Function.update table.openObjects (-1) object = table.openObjects :=
      congrArg ControlTable.openObjects same
    rw [← written, Function.update_self]
  · -- Writing what is already there changes nothing.
    rintro rfl
    rw [Function.update_eq_self]

/-- An answer leaves the tables alone. -/
theorem sameTables_ret (os : Os) (thread : Thread) (status : Int) :
    SameTables os (os.ret thread status) :=
  ⟨rfl, rfl, os.ret_table thread status⟩

/-- The answer is in register 2. -/
theorem result_ret (os : Os) (thread : Thread) (status : Int) :
    (os.ret thread status).result thread = status :=
  Function.update_self _ _ _

/-- A call that only answers -1 turns its caller down. -/
theorem turnsDown_of_ret (handled : os.handle env thread request = .ok (os.ret thread (-1))) :
    TurnsDown os env thread request :=
  ⟨_, handled, result_ret os thread (-1), sameTables_ret os thread (-1)⟩

/-- A call that fails does not return, so it turns nobody down. -/
theorem not_turnsDown_of_error {fault : Fault} (failed : os.handle env thread request = .error fault) :
    ¬ TurnsDown os env thread request := by
  rintro ⟨after, handled, -, -⟩
  rw [failed] at handled
  cases handled

/-- A host descriptor that finds no room is answered with -1. -/
theorem turnsDown_of_register (full : os.fileTable.Full)
    (handled : os.handle env thread request = .ok (os.register thread descriptor)) :
    TurnsDown os env thread request ↔ os.fileTable.openObjects (-1) = descriptor := by
  rw [← ControlTable.open_snd_iff descriptor full]
  constructor
  · -- The only thing that the answer changes is the cell in front of the file table.
    rintro ⟨after, same, -, tables⟩
    rw [handled] at same
    cases same
    exact tables.files
  · -- With the same file table everything is as it was, and -1 is the number it gave.
    intro same
    refine ⟨_, handled, ?_, same, rfl, ?_⟩
    · exact (result_ret _ thread _).trans (ControlTable.open_of_full descriptor full).1
    · intro kind
      cases kind <;> rfl

/-- A new object that finds no room is answered with -1. -/
theorem turnsDown_of_createObject {kind : Kind} {initial : Int} (full : (os.table kind).Full)
    (caller : os.kernel.caller = some thread)
    (fresh : os.kernel.life (kind.object env.object) = .unborn)
    (handled : os.handle env thread request = os.createObject env thread kind initial) :
    TurnsDown os env thread request ↔
      (os.table kind).openObjects (-1) = some env.object := by
  rw [← ControlTable.open_snd_iff _ full]
  have isPublic : (kind.object env.object).isPublic = true := by
    cases kind <;> rfl
  -- The object is made whether there is room for it or not.
  have made : os.createObject env thread kind initial =
      .ok (({ os with kernel := os.kernel.construct (kind.object env.object) initial }.setTable kind
        ((os.table kind).open_ (some env.object)).2).ret thread
          ((os.table kind).open_ (some env.object)).1) := by
    simp only [Os.createObject, Os.kernelStep, Threads.step, caller, isPublic, fresh, and_self,
      if_true]
    cases kind <;> rfl
  rw [made] at handled
  constructor
  · -- The table of this kind has kept its cell in front of the array.
    rintro ⟨after, same, -, tables⟩
    rw [handled] at same
    cases same
    have kept := tables.tables kind
    rwa [Os.ret_table, Os.setTable_table, if_pos rfl] at kept
  · -- The cell holds the new object already, so no table changes.
    intro same
    refine ⟨_, handled, ?_, ?_, ?_, ?_⟩
    · exact (result_ret _ thread _).trans (ControlTable.open_of_full _ full).1
    · rw [Os.ret_fileTable, Os.setTable_fileTable]
    · cases kind <;> rfl
    · intro other
      rw [same, Os.ret_table, Os.setTable_table]
      split
      · rename_i here
        rw [here]
      · cases other <;> rfl

/-- A call that gets a new thread counts it as a user of every table. -/
theorem not_sameTables_of_shared {kernel : Kernel} {table : ControlTable (Option Thread)}
    {result : Thread → Int} : ¬ SameTables os
      { ({ os with threadTable := table }.shareResources) with
        kernel := kernel
        result := result } := by
  intro same
  -- `ShareResources` has counted one more user of the file table.
  have users : os.fileTable.usage + 1 = os.fileTable.usage :=
    congrArg ControlTable.usage same.files
  omega

/-- `Fork` never turns its caller down. -/
theorem not_turnsDown_fork : ¬ TurnsDown os env thread .fork := by
  -- The handler never looks at what `Open` answered for the new thread.
  rintro ⟨after, forked, -, same⟩
  obtain ⟨kernel, -, rfl⟩ := kernelStep_eq_ok forked
  exact not_sameTables_of_shared same

/-- `Exec` does so only if there is nothing to execute. -/
theorem turnsDown_exec_iff {name : Int} : TurnsDown os env thread (.exec name) ↔
    readMem env.load name bufferSize = .ok () ∧ env.executable = false := by
  constructor
  · -- If it goes on to fork, the tables have one more user.
    rintro ⟨after, handled, -, same⟩
    obtain ⟨⟨⟩, read, rest⟩ := Runs.bind_eq_ok.mp handled
    refine ⟨read, ?_⟩
    by_contra executable
    rw [if_pos (by simpa using executable)] at rest
    obtain ⟨middle, forked, rest⟩ := Runs.bind_eq_ok.mp rest
    obtain ⟨kernel, -, rfl⟩ := kernelStep_eq_ok forked
    cases rest
    exact not_sameTables_of_shared same
  · rintro ⟨read, missing⟩
    refine turnsDown_of_ret ?_
    simp only [Os.handle, Os.nachOSExec, read, missing, Runs.ok_bind]
    rfl

/-- `Open` does so when the host has no descriptor for it, or one that is there already. -/
theorem turnsDown_open_iff {buffer : Int} (full : os.fileTable.Full) :
    TurnsDown os env thread (.open_ buffer) ↔ os.spares env (.open_ buffer) := by
  cases read : readMem env.load buffer bufferSize with
  -- The name cannot be read, so the handler does not return at all.
  | error fault =>
    have failed : os.handle env thread (.open_ buffer) = .error fault := by
      simp only [Os.handle, Os.nachOSOpen, read]
      rfl
    simp [Os.spares, read, not_turnsDown_of_error failed]
  | ok done =>
    -- The host refuses, and the handler answers -1 without touching the table.
    by_cases refused : env.answer = -1
    · have answered : os.handle env thread (.open_ buffer) = .ok (os.ret thread (-1)) := by
        simp only [Os.handle, Os.nachOSOpen, read, refused, Runs.ok_bind, if_true]
        rfl
      simp [Os.spares, read, refused, turnsDown_of_ret answered]
    · -- The host has a descriptor, and the table has no room for it.
      have registered : os.handle env thread (.open_ buffer) =
          .ok (os.register thread env.answer) := by
        simp only [Os.handle, Os.nachOSOpen, read, refused, Runs.ok_bind, if_false]
        rfl
      simp [Os.spares, read, refused, turnsDown_of_register full registered]

/-- So does `Socket`, and for a family or a type that it does not know. -/
theorem turnsDown_socket_iff {family type : Int} (full : os.fileTable.Full) :
    TurnsDown os env thread (.socket family type) ↔ os.spares env (.socket family type) := by
  -- A known family and type, and a descriptor of the host: this one finds no room.
  by_cases obtained : (family = 0 ∨ family = 1) ∧ (type = 0 ∨ type = 1) ∧ env.answer ≠ -1
  · have registered : os.handle env thread (.socket family type) =
        .ok (os.register thread env.answer) := by
      simp only [Os.handle, Os.nachOSSocket, if_pos obtained]
    rw [turnsDown_of_register full registered, Os.spares]
    exact ⟨fun same _ => same, fun same => same obtained⟩
  · -- Otherwise the handler has only answered -1.
    have answered : os.handle env thread (.socket family type) = .ok (os.ret thread (-1)) := by
      simp only [Os.handle, Os.nachOSSocket, if_neg obtained]
    exact ⟨fun _ possible => (obtained possible).elim, fun _ => turnsDown_of_ret answered⟩

/-- So does `Accept`, and for an identifier that is not open. -/
theorem turnsDown_accept_iff {fd : Int} (full : os.fileTable.Full) :
    TurnsDown os env thread (.accept fd) ↔ os.spares env (.accept fd) := by
  by_cases inside : ControlTable.inTable fd = true
  · cases used : os.fileTable.entry fd with
    -- An identifier that is not open is answered with -1.
    | none =>
      have answered : os.handle env thread (.accept fd) = .ok (os.ret thread (-1)) := by
        simp only [Os.handle, Os.nachOSAccept, Os.useDescriptor, ControlTable.isOpened_eq, inside,
          used, if_true, Runs.ok_bind]
        rfl
      simp [Os.spares, inside, used, turnsDown_of_ret answered]
    | some listening =>
      -- The host accepts nobody, which is answered with -1 as well.
      by_cases refused : env.answer = -1
      · have answered : os.handle env thread (.accept fd) = .ok (os.ret thread (-1)) := by
          simp only [Os.handle, Os.nachOSAccept, Os.useDescriptor, ControlTable.isOpened_eq,
            ControlTable.getObject_eq, inside, used, refused, if_true, Option.isSome_some,
            Runs.ok_bind]
          rfl
        simp [Os.spares, inside, used, refused, turnsDown_of_ret answered]
      · -- Somebody is accepted, and the table has no room for the descriptor.
        have registered : os.handle env thread (.accept fd) =
            .ok (os.register thread env.answer) := by
          simp only [Os.handle, Os.nachOSAccept, Os.useDescriptor, ControlTable.isOpened_eq,
            ControlTable.getObject_eq, inside, used, refused, if_true, if_false,
            Option.isSome_some, Runs.ok_bind]
          rfl
        simp [Os.spares, inside, used, refused, turnsDown_of_register full registered]
  · -- An identifier outside of the table ends in an `ASSERT`.
    have failed : os.handle env thread (.accept fd) = .error .assertion := by
      simp only [Os.handle, Os.nachOSAccept, Os.useDescriptor, ControlTable.isOpened_eq, inside]
      rfl
    simp [Os.spares, inside, not_turnsDown_of_error failed]

/-- Every call that finds no room turns its caller down exactly when it is spared the writing. -/
theorem turnsDown_iff (exhausted : os.exhausted request) (caller : os.kernel.caller = some thread)
    (fresh : ∀ kind : Kind, os.kernel.life (kind.object env.object) = .unborn) :
    TurnsDown os env thread request ↔ os.spares env request := by
  cases request with
  -- The file table has no room in these three.
  | open_ buffer => exact turnsDown_open_iff exhausted
  | socket family type => exact turnsDown_socket_iff exhausted
  | accept fd => exact turnsDown_accept_iff exhausted
  | exec name => exact turnsDown_exec_iff
  | fork => simp [Os.spares, not_turnsDown_fork]
  -- In these three the table of the kind has no room.
  | semCreate initial =>
    have full : (os.table .sem).Full := exhausted
    exact turnsDown_of_createObject full caller (fresh .sem) rfl
  | lockCreate =>
    have full : (os.table .lock).Full := exhausted
    exact turnsDown_of_createObject full caller (fresh .lock) rfl
  | condCreate =>
    have full : (os.table .cond).Full := exhausted
    exact turnsDown_of_createObject full caller (fresh .cond) rfl
  | _ => exact exhausted.elim

/--
A full table answers -1 but is written in front of its array, and the calls built on it go on.

The table and the calls leave everything as it was only if nothing new is written there.
-/
theorem full_iff_spared (exhausted : os.exhausted request)
    (caller : os.kernel.caller = some thread)
    (fresh : ∀ kind : Kind, os.kernel.life (kind.object env.object) = .unborn) :
    (∀ {α : Type} (table : ControlTable α) (object : α), table.Full →
      (table.open_ object).1 = -1 ∧
        ((table.open_ object).2 = table ↔ table.openObjects (-1) = object)) ∧
    (TurnsDown os env thread request ↔ os.spares env request) := by
  refine ⟨?_, turnsDown_iff exhausted caller fresh⟩
  intro α table object full
  exact ⟨(ControlTable.open_of_full object full).1, ControlTable.open_snd_iff object full⟩

end

/-- The first process has opened files until there was no room for more. -/
def crowdedOs : Os :=
  { firstOs with
    fileTable := (List.range 97).foldl
      (fun table number => (table.open_ number).2) firstOs.fileTable }

/-- It opens one more, which the host refuses. -/
theorem turnsDown_crowded : TurnsDown crowdedOs Env.quiet 0 (.open_ 0) := by
  have exhausted : crowdedOs.exhausted (.open_ 0) := by
    have full : crowdedOs.fileTable.Full := by decide +kernel
    exact full
  refine (full_iff_spared exhausted rfl ?_).2.mpr ⟨?_, ?_⟩
  · -- No semaphore, lock or condition has been made yet.
    intro kind
    cases kind <;> rfl
  · rfl
  · -- The host has refused, so nothing was obtained.
    exact fun obtained => (obtained rfl).elim

/-- The first thread calls `Fork` a number of times, for threads with new addresses. -/
def forks (number : Nat) : List Action :=
  (List.range number).map fun thread => .syscall .fork { Env.quiet with thread := thread + 1 }

/-- After 99 calls of `Fork` there is no room for the hundredth one: it writes in front of the array,
and the new thread runs all the same. -/
theorem not_turnsDown_forks : ∃ os, Runs.run (step 0) firstOs (forks 99) = .ok os ∧
    os.threadTable.Full ∧
    (os.threadTable.open_ (some 100)).2.openObjects (-1) ≠ os.threadTable.openObjects (-1) ∧
    ¬ TurnsDown os { Env.quiet with thread := 100 } 0 .fork := by
  -- The run ends with a full table and nothing written in front of its array.
  obtain ⟨os, ran, checked⟩ := Runs.exists_of_runsTo
    (show Runs.runsTo (step 0) firstOs (forks 99)
      (fun os => os.threadTable.Full ∧ os.threadTable.openObjects (-1) = none) = true by
        decide +kernel)
  obtain ⟨full, empty⟩ := of_decide_eq_true checked
  refine ⟨os, ran, full, ?_, not_turnsDown_fork⟩
  -- The number of the new thread is written there.
  rw [ControlTable.open_snd_of_full _ full, empty]
  simp

end Nachos.Syscall
