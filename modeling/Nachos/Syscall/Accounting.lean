import Nachos.Lib.Runs
import Nachos.Syscall.Registry
import Nachos.Syscall.Resources

/-! The tables count the threads that point to them, and go when the last of these ends. -/

namespace Nachos.Syscall

/-- Every kind is shared, and every kind is left. -/
theorem TableKind.mem_orders (kind : TableKind) :
    kind ∈ shareOrder ∧ kind ∈ removeOrder := by
  cases kind <;> decide

namespace Resources

/-- A memory with one table of each kind at most. -/
def heapOf (address : TableKind → Nat)
    (tables : (kind : TableKind) → Option (ControlTable kind.Item)) :
    (kind : TableKind) → Nat → Option (ControlTable kind.Item) :=
  fun kind => Function.update (fun _ => none) (address kind) (tables kind)

variable {address : TableKind → Nat}
  {tables : (kind : TableKind) → Option (ControlTable kind.Item)}
  {pointer : Thread → TableKind → Option Nat} {live : Finset Thread} {thread : Thread}
  {kind : TableKind}

/-- Assigning a table at its address. -/
theorem setTable_heapOf (table : Option (ControlTable kind.Item)) :
    (⟨heapOf address tables, pointer, live⟩ : Resources).setTable kind (address kind) table =
      ⟨heapOf address (Function.update tables kind table), pointer, live⟩ := by
  rw [setTable, Resources.mk.injEq]
  refine ⟨?_, rfl, rfl⟩
  funext other
  by_cases same : other = kind
  · subst same
    simp only [heapOf, Function.update_self, Function.update_idem]
  · simp only [heapOf, Function.update_of_ne same]

/-- Following a pointer to a table that is there. -/
theorem follow_heapOf {table : ControlTable kind.Item}
    (points : pointer thread kind = some (address kind)) (there : tables kind = some table) :
    (⟨heapOf address tables, pointer, live⟩ : Resources).follow thread kind =
      .ok (address kind, table) := by
  simp [follow, points, heapOf, there]

/-- Calling a method of a table that is there. -/
theorem onTable_heapOf {table : ControlTable kind.Item}
    {change : ControlTable kind.Item → ControlTable kind.Item}
    (points : pointer thread kind = some (address kind)) (there : tables kind = some table) :
    (⟨heapOf address tables, pointer, live⟩ : Resources).onTable thread kind change =
      .ok ⟨heapOf address (Function.update tables kind (some (change table))), pointer, live⟩ := by
  rw [onTable, follow_heapOf points there, Runs.ok_bind]
  exact congrArg Except.ok (setTable_heapOf _)

/-- A change of the tables of some kinds. -/
def changed (kinds : List TableKind)
    (change : (kind : TableKind) → ControlTable kind.Item → Option (ControlTable kind.Item))
    (tables : (kind : TableKind) → Option (ControlTable kind.Item)) :
    (kind : TableKind) → Option (ControlTable kind.Item) :=
  fun kind => if kind ∈ kinds then (tables kind).bind (change kind) else tables kind

/-- One kind after the other. -/
theorem changed_cons {first : TableKind} {kinds : List TableKind}
    {change : (kind : TableKind) → ControlTable kind.Item → Option (ControlTable kind.Item)}
    (fresh : first ∉ kinds) :
    changed kinds change (Function.update tables first ((tables first).bind (change first))) =
      changed (first :: kinds) change tables := by
  funext kind
  by_cases same : kind = first
  · subst same
    simp [changed, fresh]
  · simp [changed, same]

/-- The loop over the tables of a thread that lets it leave them. -/
theorem foldlM_onTable
    {change : (kind : TableKind) → ControlTable kind.Item → ControlTable kind.Item}
    {kinds : List TableKind} : ∀ {tables}, kinds.Nodup →
      (∀ kind ∈ kinds, pointer thread kind = some (address kind)) →
      (∀ kind ∈ kinds, (tables kind).isSome) →
      kinds.foldlM (fun state kind => state.onTable thread kind (change kind))
          (⟨heapOf address tables, pointer, live⟩ : Resources) =
        .ok ⟨heapOf address (changed kinds (fun kind table => some (change kind table)) tables),
          pointer, live⟩ := by
  induction kinds with
  | nil => exact fun _ _ _ => rfl
  | cons first kinds ih =>
    intro tables once points there
    obtain ⟨fresh, once⟩ := List.nodup_cons.mp once
    obtain ⟨table, found⟩ := Option.isSome_iff_exists.mp (there first List.mem_cons_self)
    rw [List.foldlM_cons, onTable_heapOf (points first List.mem_cons_self) found, Runs.ok_bind,
      ih once (fun kind member => points kind (List.mem_cons_of_mem _ member)), ← changed_cons fresh,
      found]
    · rfl
    · -- The other tables are still there.
      intro kind member
      have differ : kind ≠ first := fun same => fresh (same ▸ member)
      rw [Function.update_of_ne differ]
      exact there kind (List.mem_cons_of_mem _ member)

/-- The loop of `ShareResources`. -/
theorem foldlM_shareTable {src dst : Thread} (differ : dst ≠ src) {kinds : List TableKind} :
    ∀ {tables pointer}, kinds.Nodup →
      (∀ kind ∈ kinds, pointer src kind = some (address kind)) →
      (∀ kind ∈ kinds, (tables kind).isSome) →
      ∃ pointer', kinds.foldlM (fun state kind => state.shareTable src dst kind)
          (⟨heapOf address tables, pointer, live⟩ : Resources) =
        .ok ⟨heapOf address (changed kinds (fun _ table => some table.addThread) tables),
          pointer', live⟩ ∧
        (∀ kind ∈ kinds, pointer' dst kind = some (address kind)) ∧
        (∀ kind ∉ kinds, pointer' dst kind = pointer dst kind) ∧
        ∀ other, other ≠ dst → pointer' other = pointer other := by
  induction kinds with
  | nil => exact fun {tables pointer} _ _ _ => ⟨pointer, rfl, by simp, by simp, by simp⟩
  | cons first kinds ih =>
    intro tables pointer once points there
    obtain ⟨fresh, once⟩ := List.nodup_cons.mp once
    obtain ⟨table, found⟩ := Option.isSome_iff_exists.mp (there first List.mem_cons_self)
    have source := points first List.mem_cons_self
    have others : ∀ other, other ≠ dst → Function.update pointer dst
        (Function.update (pointer dst) first (pointer src first)) other = pointer other :=
      fun other apart => Function.update_of_ne apart _ _
    obtain ⟨pointer', shared, mine, rest, same⟩ := @ih
      (Function.update tables first ((tables first).bind fun table => some table.addThread))
      (Function.update pointer dst (Function.update (pointer dst) first (pointer src first))) once
      (by
        intro kind member
        rw [others src differ.symm]
        exact points kind (List.mem_cons_of_mem _ member))
      (by
        intro kind member
        have apart : kind ≠ first := fun same => fresh (same ▸ member)
        rw [Function.update_of_ne apart]
        exact there kind (List.mem_cons_of_mem _ member))
    refine ⟨pointer', ?_, ?_, ?_, fun other apart => (same other apart).trans (others other apart)⟩
    · rw [List.foldlM_cons, shareTable, onTable_heapOf (by simp [source]) found, Runs.ok_bind,
        ← changed_cons fresh, ← shared, found]
      rfl
    · intro kind member
      rcases List.mem_cons.mp member with rfl | member
      · rw [rest kind fresh]
        simp [source]
      · exact mine kind member
    · intro kind outside
      rw [List.mem_cons, not_or] at outside
      rw [rest kind outside.2, Function.update_self, Function.update_of_ne outside.1]

/-- What `deleteUnused` leaves of a table. -/
def kept {Item : Type} (table : ControlTable Item) : Option (ControlTable Item) :=
  if table.usage = 0 then none else some table

/-- The loop of `removeResources` that deletes the tables that nobody uses. -/
theorem foldlM_deleteUnused {kinds : List TableKind} : ∀ {tables} {finish : Bool}, kinds.Nodup →
      (∀ kind ∈ kinds, pointer thread kind = some (address kind)) →
      (∀ kind ∈ kinds, (tables kind).isSome) →
      ∃ finish', kinds.foldlM (fun (result : Bool × Resources) kind => do
          let (deleted, state) ← result.2.deleteUnused thread kind
          return (result.1 && deleted, state))
          (finish, (⟨heapOf address tables, pointer, live⟩ : Resources)) =
        .ok (finish', ⟨heapOf address (changed kinds (fun _ => kept) tables), pointer, live⟩) := by
  induction kinds with
  | nil => exact fun {tables finish} _ _ _ => ⟨finish, rfl⟩
  | cons first kinds ih =>
    intro tables finish once points there
    obtain ⟨fresh, once⟩ := List.nodup_cons.mp once
    obtain ⟨table, found⟩ := Option.isSome_iff_exists.mp (there first List.mem_cons_self)
    have deletes : ∃ deleted, deleteUnused ⟨heapOf address tables, pointer, live⟩ thread first =
        .ok (deleted, ⟨heapOf address (Function.update tables first
          ((tables first).bind kept)), pointer, live⟩) := by
      rw [deleteUnused, follow_heapOf (points first List.mem_cons_self) found, Runs.ok_bind, found,
        Option.bind_some, kept]
      dsimp only
      split
      · exact ⟨true, by rw [setTable_heapOf]; rfl⟩
      · exact ⟨false, by rw [← found, Function.update_eq_self]; rfl⟩
    obtain ⟨deleted, done⟩ := deletes
    obtain ⟨finish', rest⟩ := @ih
      (Function.update tables first ((tables first).bind kept)) (finish && deleted) once
      (fun kind member => points kind (List.mem_cons_of_mem _ member)) (by
        intro kind member
        have differ : kind ≠ first := fun same => fresh (same ▸ member)
        rw [Function.update_of_ne differ]
        exact there kind (List.mem_cons_of_mem _ member))
    refine ⟨finish', ?_⟩
    rw [List.foldlM_cons, done, ← changed_cons fresh, ← rest]
    rfl

/-- All live threads share one table of each kind, which counts them. -/
structure Shared (state : Resources) (address : TableKind → Nat)
    (tables : (kind : TableKind) → ControlTable kind.Item) : Prop where
  heap : state.heap = heapOf address fun kind => some (tables kind)
  points : ∀ thread ∈ state.live, ∀ kind, state.pointer thread kind = some (address kind)
  usage : ∀ kind, (tables kind).usage = state.live.card
  registers : Registers (tables .thread) state.live

variable {state after : Resources} {tables : (kind : TableKind) → ControlTable kind.Item}
  {current new : Thread}

/-- The shared tables with a new thread, which is entered into one and counted by all of them. -/
def joined (tables : (kind : TableKind) → ControlTable kind.Item) (new : Thread) :
    (kind : TableKind) → ControlTable kind.Item := fun kind =>
  (Function.update tables .thread (ControlTable.open_ (tables .thread) (some new)).2 kind).addThread

/-- A new thread shares the tables of the one that creates it. -/
theorem Shared.spawn (shared : Shared state address tables) (alive : current ∈ state.live)
    (fresh : new ∉ state.live) (few : state.live.card < tableSize) :
    ∃ after tables', state.spawn current new = .ok after ∧ after.live = insert new state.live ∧
      Shared after address tables' := by
  obtain ⟨heap, points, usage, registers⟩ := shared
  obtain ⟨_, pointer, live⟩ := state
  subst heap
  have differ : current ≠ new := fun same => fresh (same ▸ alive)
  have mine : ∀ kind, Function.update pointer new (fun _ => none) current kind =
      some (address kind) := by
    intro kind
    rw [Function.update_of_ne differ]
    exact points current alive kind
  -- The new thread is entered into the table of the running one.
  have opened := @onTable_heapOf address (fun kind => some (tables kind)) _ live current .thread
    (tables .thread) (fun table => (ControlTable.open_ table (some new)).2) (mine .thread) rfl
  obtain ⟨pointer', shared, theirs, -, others⟩ := @foldlM_shareTable address live current new
    differ.symm TableKind.shareOrder
    (Function.update (fun kind => some (tables kind)) .thread
      (some (ControlTable.open_ (tables .thread) (some new)).2)) _ (by decide)
    (fun kind _ => mine kind) (by
      intro kind _
      cases kind <;> rfl)
  have counted : changed TableKind.shareOrder (fun _ table => some table.addThread)
      (Function.update (fun kind => some (tables kind)) .thread
        (some (ControlTable.open_ (tables .thread) (some new)).2)) =
      fun kind => some (joined tables new kind) := by
    funext kind
    cases kind <;> rfl
  rw [counted] at shared
  refine ⟨⟨heapOf address _, pointer', insert new live⟩, joined tables new, ?_, rfl, rfl, ?_, ?_, ?_⟩
  · rw [Resources.spawn, openItem, opened, Runs.ok_bind, shareResources, shared, Runs.ok_bind]
    rfl
  · intro thread member kind
    rcases Finset.mem_insert.mp member with rfl | older
    · exact theirs kind kind.mem_orders.1
    · have apart : thread ≠ new := fun same => fresh (same ▸ older)
      have same := others thread apart
      rw [Function.update_of_ne apart] at same
      exact (congrFun same kind).trans (points thread older kind)
  · intro kind
    have before : (Function.update tables .thread
        (ControlTable.open_ (tables .thread) (some new)).2 kind).usage = live.card := by
      rw [← usage kind]
      cases kind with
      | thread => exact ControlTable.usage_open _ _
      | file | sem | lock | cond => rfl
    rw [Finset.card_insert_of_notMem fresh, joined, ControlTable.addThread, before]
    push_cast
    rfl
  · exact (registers.open_ fresh (registers.room few)).addThread

/-- The shared tables without the user that left them, after its entry was closed. -/
def parted (tables : (kind : TableKind) → ControlTable kind.Item)
    (closed : ControlTable (Option Thread)) : (kind : TableKind) → ControlTable kind.Item :=
  fun kind => (Function.update tables .thread closed kind).delThread

/-- A thread that ends leaves its tables, and deletes them if it was the last one. -/
theorem Shared.exit (shared : Shared state address tables) (alive : current ∈ state.live) :
    ∃ after, state.nachOSExit current = .ok after ∧ after.live = state.live.erase current ∧
      ((state.live.erase current).Nonempty → ∃ tables', Shared after address tables') ∧
      (state.live = {current} → after.heap = fun _ _ => none) := by
  obtain ⟨heap, points, usage, registers⟩ := shared
  obtain ⟨_, pointer, live⟩ := state
  subst heap
  obtain ⟨object, closed, done, erased, count⟩ := registers.close alive
  have mine : ∀ kind, pointer current kind = some (address kind) := points current alive
  have found := @follow_heapOf address (fun kind => some (tables kind)) pointer live current .thread
    (tables .thread) (mine .thread) rfl
  have stored := @setTable_heapOf address (fun kind => some (tables kind)) pointer live .thread
    (some closed)
  have left := @foldlM_onTable address pointer live current (fun _ => ControlTable.delThread)
    TableKind.removeOrder (Function.update (fun kind => some (tables kind)) .thread (some closed))
    (by decide) (fun kind _ => mine kind) (by
      intro kind _
      cases kind <;> rfl)
  have remaining : ∀ kind, (parted tables closed kind).usage = live.card - 1 := by
    intro kind
    rw [← usage kind]
    cases kind with
    | thread => exact congrArg (· - 1) count
    | file | sem | lock | cond => rfl
  obtain ⟨finish, deleted⟩ := @foldlM_deleteUnused address pointer live current
    TableKind.removeOrder (fun kind => some (parted tables closed kind)) true (by decide) (fun kind _ => mine kind) (fun _ _ => rfl)
  have tables_eq : changed TableKind.removeOrder (fun _ table => some table.delThread)
      (Function.update (fun kind => some (tables kind)) .thread (some closed)) =
      fun kind => some (parted tables closed kind) := by
    funext kind
    cases kind <;> rfl
  have rest : (live.erase current).card + 1 = live.card := Finset.card_erase_add_one alive
  refine ⟨⟨heapOf address (changed TableKind.removeOrder (fun _ => kept)
    fun kind => some (parted tables closed kind)), pointer, live.erase current⟩, ?_, rfl, ?_, ?_⟩
  · rw [nachOSExit, removeResources, found, Runs.ok_bind]
    dsimp only
    rw [done, Runs.ok_bind]
    dsimp only
    rw [stored, left, Runs.ok_bind, tables_eq, deleted]
    rfl
  · -- Somebody is left, so no table is deleted.
    intro others
    have left : 0 < (live.erase current).card := Finset.card_pos.mpr others
    refine ⟨parted tables closed, ?_, ?_, ?_, ?_⟩
    · refine congrArg (heapOf address) (funext fun kind => ?_)
      have used : (parted tables closed kind).usage ≠ 0 := by
        rw [remaining]
        omega
      simp only [changed, if_pos kind.mem_orders.2, Option.bind_some, kept, if_neg used]
    · exact fun thread member => points thread (Finset.mem_of_mem_erase member)
    · intro kind
      have counted : (parted tables closed kind).usage = ((live.erase current).card : Int) := by
        rw [remaining]
        omega
      exact counted
    · exact erased.delThread
  · -- The last thread leaves no table.
    rintro rfl
    funext kind place
    have unused : (parted tables closed kind).usage = 0 := by
      rw [remaining, Finset.card_singleton]
      rfl
    have gone : changed TableKind.removeOrder (fun _ => kept)
        (fun kind => some (parted tables closed kind)) kind = none := by
      simp only [changed, if_pos kind.mem_orders.2, Option.bind_some, kept, if_pos unused]
    simp only [heapOf, gone, Function.update_apply, ite_self]

/-- The table that the constructor leaves, with the garbage it found. -/
def fresh (garbage : (kind : TableKind) → Garbage kind) (kind : TableKind) :
    ControlTable kind.Item :=
  .new kind.cleared (garbage kind).objects (garbage kind).words (garbage kind).covers

/-- The loop of `StartProcess` that creates the tables. -/
theorem foldl_newTable (main : Thread) (address : TableKind → Nat)
    (garbage : (kind : TableKind) → Garbage kind) :
    TableKind.shareOrder.foldl
        (fun state kind => newTable state main kind (address kind) (garbage kind))
        ⟨fun _ _ => none, fun _ _ => none, ∅⟩ =
      ⟨heapOf address fun kind => some (fresh garbage kind),
        Function.update (fun _ _ => none) main fun kind => some (address kind), ∅⟩ := by
  rw [Resources.mk.injEq]
  refine ⟨?_, ?_, rfl⟩
  · funext kind
    cases kind <;> rfl
  · funext other
    by_cases same : other = main
    · subst same
      funext kind
      simp only [TableKind.shareOrder, List.foldl_cons, List.foldl_nil, newTable, setTable,
        Function.update_self, Function.update_idem]
      cases kind <;> rfl
    · simp only [TableKind.shareOrder, List.foldl_cons, List.foldl_nil, newTable, setTable,
        Function.update_of_ne same]

/-- What `StartProcess` leaves is shared by the first thread alone. -/
theorem Started.shared {main : Thread} (started : Started main state) :
    state.live = {main} ∧ ∃ address tables, Shared state address tables := by
  obtain ⟨address, garbage, started⟩ := started
  rw [startProcess, foldl_newTable] at started
  have points : ∀ kind, Function.update (fun _ _ => none) main
      (fun kind => some (address kind)) main kind = some (address kind) := by simp
  -- Three descriptors are opened, and the thread itself.
  simp only [openItem] at started
  rw [onTable_heapOf (points .file) rfl, Runs.ok_bind,
    onTable_heapOf (points .file) (Function.update_self _ _ _), Runs.ok_bind,
    onTable_heapOf (points .file) (Function.update_self _ _ _), Runs.ok_bind,
    onTable_heapOf (points .thread) (show _ = some (fresh garbage .thread) from rfl), Runs.ok_bind]
    at started
  cases started
  refine ⟨rfl, address, fun kind => Function.update (Function.update (fresh garbage) .file
    ((((fresh garbage .file).open_ 0).2.open_ 1).2.open_ 2).2) .thread
    ((fresh garbage .thread).open_ (some main)).2 kind, ?_, ?_, ?_, ?_⟩
  · refine congrArg (heapOf address) (funext fun kind => ?_)
    cases kind <;> rfl
  · intro thread member kind
    obtain rfl : thread = main := by simpa using member
    exact points kind
  · intro kind
    cases kind with
    | file =>
      rw [Function.update_of_ne (by decide), Function.update_self, ControlTable.usage_open,
        ControlTable.usage_open, ControlTable.usage_open]
      rfl
    | thread =>
      rw [Function.update_self, ControlTable.usage_open]
      rfl
    | sem | lock | cond =>
      rw [Function.update_of_ne (by decide), Function.update_of_ne (by decide)]
      rfl
  · simp only [Function.update_self]
    exact Registers.started (ControlTable.entry_new _ _ _ _) main

/-- Either some threads share all tables, or there are none of either. -/
def Accounted (state : Resources) : Prop :=
  (∃ address tables, state.live.Nonempty ∧ Shared state address tables) ∨
    state.live = ∅ ∧ state.heap = fun _ _ => none

/-- Every table that is there counts the live threads that point to it. -/
structure Balanced (state : Resources) : Prop where
  usage : ∀ kind address table, state.heap kind address = some table →
    table.usage = (state.pointing kind address).card ∧ (state.pointing kind address).Nonempty
  /-- No live thread refers to a table that is not there. -/
  there : ∀ thread ∈ state.live, ∀ kind, ∃ address table,
    state.pointer thread kind = some address ∧ state.heap kind address = some table
  /-- Only live threads are registered, and each of them at one identifier. -/
  registered : ∀ address (table : ControlTable (Option Thread)),
    state.heap .thread address = some table →
    (∀ id object, table.entry id = some object → ∃ thread ∈ state.live, object = some thread) ∧
      ∀ thread ∈ state.live, ∃! id, table.entry id = some (some thread)

/-- The only tables there are those that all live threads point to. -/
theorem Shared.eq_of_heap (shared : Shared state address tables) {place : Nat}
    {table : ControlTable kind.Item} (there : state.heap kind place = some table) :
    place = address kind ∧ table = tables kind := by
  rw [shared.heap, heapOf, Function.update_apply] at there
  split at there
  · rename_i same
    exact ⟨same, (Option.some.inj there).symm⟩
  · simp at there

/-- All live threads point to the shared tables. -/
theorem Shared.pointing_eq (shared : Shared state address tables) :
    state.pointing kind (address kind) = state.live :=
  Finset.filter_true_of_mem fun thread alive => shared.points thread alive kind

/-- Accounts that are shared are balanced. -/
theorem Accounted.balanced (accounted : Accounted state) : Balanced state := by
  rcases accounted with ⟨address, tables, some, shared⟩ | ⟨nobody, nothing⟩
  · refine ⟨?_, ?_, ?_⟩
    · intro kind place table there
      obtain ⟨rfl, rfl⟩ := shared.eq_of_heap there
      rw [shared.pointing_eq]
      exact ⟨shared.usage kind, some⟩
    · intro thread alive kind
      refine ⟨address kind, tables kind, shared.points thread alive kind, ?_⟩
      simp [shared.heap, heapOf]
    · intro place table there
      obtain ⟨rfl, rfl⟩ := shared.eq_of_heap there
      refine ⟨shared.registers.members, fun thread alive => ?_⟩
      obtain ⟨id, listed⟩ := shared.registers.listed thread alive
      exact ⟨id, listed, fun other listed' => shared.registers.once other id thread listed' listed⟩
  · refine ⟨?_, ?_, ?_⟩
    · simp [nothing]
    · simp [nobody]
    · simp [nothing]

/-- A call by a live thread succeeds, and keeps the accounts. -/
theorem Accounted.stepped {action : Action} (accounted : Accounted state)
    (caller : action.caller ∈ state.live) (fresh : ∀ new ∈ action.created, new ∉ state.live)
    (few : AtMostTableSize state action) :
    ∃ after, step state action = .ok after ∧ Accounted after ∧
      ∀ kind address, (state.heap kind address).isSome →
        (after.heap kind address = none ↔
          ∃ thread, action = .exit thread ∧ state.pointing kind address = {thread}) := by
  rcases accounted with ⟨address, tables, -, shared⟩ | ⟨nobody, -⟩
  · -- Without an `Exit`, the same tables stay.
    have kept : ∀ {after tables'}, Shared after address tables' → ∀ kind place,
        (state.heap kind place).isSome → after.heap kind place ≠ none := by
      intro after tables' shared' kind place there
      obtain ⟨table, there⟩ := Option.isSome_iff_exists.mp there
      rw [(shared.eq_of_heap there).1, shared'.heap]
      simp [heapOf]
    unfold step
    rw [if_pos ⟨caller, fresh⟩]
    cases action with
    | exec current new executable =>
      cases executable with
      | false => exact ⟨state, rfl, .inl ⟨address, tables, ⟨current, caller⟩, shared⟩, by
          intro kind place there
          simp [kept shared kind place there]⟩
      | true =>
        obtain ⟨after, tables', done, live, shared'⟩ :=
          shared.spawn caller (fresh new rfl) (few rfl)
        refine ⟨after, done, .inl ⟨address, tables', ⟨new, by simp [live]⟩, shared'⟩, ?_⟩
        intro kind place there
        simp [kept shared' kind place there]
    | fork current new =>
      obtain ⟨after, tables', done, live, shared'⟩ :=
        shared.spawn caller (fresh new rfl) (few rfl)
      refine ⟨after, done, .inl ⟨address, tables', ⟨new, by simp [live]⟩, shared'⟩, ?_⟩
      intro kind place there
      simp [kept shared' kind place there]
    | exit current =>
      obtain ⟨after, done, live, rest, last⟩ := shared.exit caller
      refine ⟨after, done, ?_, ?_⟩
      · rcases Finset.eq_empty_or_nonempty (state.live.erase current) with empty | others
        · refine .inr ⟨live.trans empty, last ?_⟩
          exact ((Finset.erase_eq_empty_iff _ _).mp empty).resolve_left
            (Finset.ne_empty_of_mem caller)
        · obtain ⟨tables', shared'⟩ := rest others
          exact .inl ⟨address, tables', by rwa [live], shared'⟩
      · intro kind place there
        obtain ⟨table, found⟩ := Option.isSome_iff_exists.mp there
        obtain ⟨rfl, -⟩ := shared.eq_of_heap found
        rw [shared.pointing_eq]
        constructor
        · intro deleted
          rcases Finset.eq_empty_or_nonempty (state.live.erase current) with empty | others
          · exact ⟨current, rfl, ((Finset.erase_eq_empty_iff _ _).mp empty).resolve_left
              (Finset.ne_empty_of_mem caller)⟩
          · obtain ⟨tables', shared'⟩ := rest others
            exact absurd deleted (kept shared' kind _ there)
        · rintro ⟨thread, same, alone⟩
          cases same
          rw [last alone]
  · -- Nobody is left to call anything.
    simp [nobody] at caller

/-- The accounts are kept from `StartProcess` on. -/
theorem accounted_of_reachable {main : Thread}
    (reached : Runs.Reachable step (Started main) AtMostTableSize state) : Accounted state := by
  refine reached.invariant Accounted ?_ ?_
  · intro state started
    obtain ⟨alone, address, tables, shared⟩ := Started.shared started
    exact .inl ⟨address, tables, by simp [alone], shared⟩
  · intro state action after accounted few done
    have allowed : action.caller ∈ state.live ∧ ∀ new ∈ action.created, new ∉ state.live := by
      by_contra denied
      unfold step at done
      rw [if_neg denied] at done
      cases done
    obtain ⟨after', done', accounted', -⟩ := accounted.stepped allowed.1 allowed.2 few
    rw [done, Except.ok.injEq] at done'
    exact done' ▸ accounted'

/--
The tables count the live threads that point to them, and the registry lists exactly these.

Every call of a live thread succeeds, and deletes a table exactly when the last thread that points
to it ends.
-/
theorem tables_accounted {main : Thread}
    (reached : Runs.Reachable step (Started main) AtMostTableSize state) :
    Balanced state ∧ ∀ action, action.caller ∈ state.live →
      (∀ new ∈ action.created, new ∉ state.live) → AtMostTableSize state action →
      ∃ after, step state action = .ok after ∧ ∀ kind address, (state.heap kind address).isSome →
        (after.heap kind address = none ↔
          ∃ thread, action = .exit thread ∧ state.pointing kind address = {thread}) := by
  have accounted := accounted_of_reachable reached
  refine ⟨accounted.balanced, ?_⟩
  intro action caller fresh few
  obtain ⟨after, done, -, deleted⟩ := accounted.stepped caller fresh few
  exact ⟨after, done, deleted⟩

/-- Memory whose old contents look like the address of a thread. -/
def leftovers : (kind : TableKind) → Garbage kind
  | .file => ⟨fun _ => 5, List.replicate 4 (-1#32), ControlTable.fits_fourWords⟩
  | .thread => ⟨fun _ => some 2, List.replicate 4 (-1#32), ControlTable.fits_fourWords⟩
  | .sem | .lock | .cond => ⟨fun _ => some 9, List.replicate 4 (-1#32), ControlTable.fits_fourWords⟩

/-- Threads come and go in an order of their own until one is left. -/
def comeAndGo : List Action :=
  [.fork 0 1, .exec 1 2 true, .exit 0, .fork 2 3, .exec 3 4 false, .exit 1, .exit 3]

/-- The last thread takes the tables with it. -/
theorem tables_accounted_comeAndGo :
    ∃ state last, Runs.run step state comeAndGo = .ok last ∧ Balanced last ∧
      ∃ after, step last (.exit 2) = .ok after ∧ after.heap .thread 7 = none := by
  have answers : (match startProcess ⟨fun _ _ => none, fun _ _ => none, ∅⟩ 0 (fun _ => 7)
      leftovers with
    | .error _ => false
    | .ok state => decide (Runs.Guarded step AtMostTableSize state comeAndGo) &&
      Runs.runsTo step state comeAndGo fun last => last.live = {2} && (last.heap .thread 7).isSome &&
        last.pointer 2 .thread = some 7) = true := by decide +kernel
  split at answers
  · simp at answers
  · rename_i state started
    rw [Bool.and_eq_true, decide_eq_true_eq] at answers
    obtain ⟨guarded, answers⟩ := answers
    obtain ⟨last, ran, seen⟩ := Runs.exists_of_runsTo answers
    simp only [Bool.and_eq_true, decide_eq_true_eq] at seen
    obtain ⟨⟨alone, there⟩, points⟩ := seen
    obtain ⟨balanced, answered⟩ := tables_accounted
      ((Runs.Reachable.start ⟨_, _, started⟩).extend guarded ran)
    obtain ⟨after, done, deleted⟩ := answered (.exit 2) (by simp [Action.caller, alone])
      (by simp [Action.created]) (by simp [AtMostTableSize, Action.created])
    refine ⟨state, last, ran, balanced, after, done, (deleted .thread 7 there).mpr ⟨2, rfl, ?_⟩⟩
    rw [pointing, alone]
    simp [Finset.filter_singleton, points]

end Resources

end Nachos.Syscall
