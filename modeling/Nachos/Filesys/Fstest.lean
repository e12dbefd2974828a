import Nachos.Filesys.SessionLaws

/-! The programs that exercise the file system: copying a UNIX file, printing a file, a stress test. -/

namespace Nachos.Filesys

/-- `TransferSize`. -/
def transferSize : Nat := 10

/-- The loop of `Copy`, with so many turns at most. -/
def copyLoop (handle : Nat) (garbage : Buffer) : Nat → List Byte → Session → Except Fault Session
  | 0, _, session => .ok session
  | turns + 1, rest, session =>
    -- `fread` fills the buffer, as far as the UNIX file reaches.
    let buffer := rest.take transferSize
    if buffer.length > 0 then do
      let session ← session.step (.write handle garbage (Buffer.ofList buffer) buffer.length)
      copyLoop handle garbage turns (rest.drop transferSize) session
    else .ok session

/-- `Copy`, of a UNIX file with these bytes: whether a file was created for them. -/
def copy (session : Session) (handle : Nat) (garbage : Garbage) (buffer : Buffer)
    (bytes to_ : List Byte) : Except Fault (Bool × Session) := do
  let (created, session) ← session.perform (.create garbage to_ (BitVec.ofNat 32 bytes.length))
  if created.success then
    let (opened, session) ← session.perform (.openAs handle garbage to_)
    if opened.success then
      let session ← copyLoop handle buffer (bytes.length + 1) bytes session
      let session ← session.step (.close handle)
      return (true, session)
    else .error .assertion
  else return (false, session)

/-- What `Print` shows: the file, or that it could not be opened. -/
inductive Printed where
  | unable
  | text (bytes : List Byte)
deriving DecidableEq

/-- The loop of `Print`, with so many turns at most. -/
def printLoop (handle : Nat) : Nat → Session → Except Fault (Option (List Byte) × Session)
  | 0, session => .ok (none, session)
  | turns + 1, session => do
    let (answer, session) ← session.perform (.read handle transferSize)
    if answer.count > 0 then
      let (rest, session) ← printLoop handle turns session
      return (rest.map fun bytes => answer.bytes ++ bytes, session)
    else return (some [], session)

/-- `Print`. -/
def print (session : Session) (handle : Nat) (garbage : Garbage) (name : List Byte) (turns : Nat) :
    Except Fault (Option Printed × Session) := do
  let (opened, session) ← session.perform (.openAs handle garbage name)
  if opened.success then
    let (bytes, session) ← printLoop handle turns session
    let session ← session.step (.close handle)
    return (bytes.map .text, session)
  else return (some .unable, session)

/-- `FileName`. -/
def fileName : List Byte := [84, 101, 115, 116, 70, 105, 108, 101]

/-- `Contents`. -/
def testContents : List Byte := [49, 50, 51, 52, 53, 54, 55, 56, 57, 48]

/-- The number of turns of both loops of the stress test: `FileSize` in steps of `ContentSize`. -/
def testTurns : Nat := 5000

/-- What the stress test reports when it does not get through. -/
inductive Report where
  | cannotCreate
  | unableToOpen
  | unableToWrite
  | unableToRead
  | unableToRemove
deriving DecidableEq

/-- The loop of `FileWrite`. -/
def fileWriteLoop (handle : Nat) (buffer : Buffer) : Nat → Session →
    Except Fault (List Report × Session)
  | 0, session => .ok ([], session)
  | turns + 1, session => do
    let (answer, session) ← session.perform
      (.write handle buffer (Buffer.ofList testContents) testContents.length)
    if answer.count < 10 then return ([.unableToWrite], session)
    else fileWriteLoop handle buffer turns session

/-- `FileWrite`. -/
def fileWrite (session : Session) (handle : Nat) (garbage : Garbage) (buffer : Buffer) :
    Except Fault (List Report × Session) := do
  let (created, session) ← session.perform (.create garbage fileName 0)
  if created.success then
    let (opened, session) ← session.perform (.openAs handle garbage fileName)
    if opened.success then
      let (reports, session) ← fileWriteLoop handle buffer testTurns session
      let session ← session.step (.close handle)
      return (reports, session)
    else return ([.unableToOpen], session)
  else return ([.cannotCreate], session)

/-- The loop of `FileRead`. -/
def fileReadLoop (handle : Nat) : Nat → Session → Except Fault (List Report × Session)
  | 0, session => .ok ([], session)
  | turns + 1, session => do
    let (answer, session) ← session.perform (.read handle testContents.length)
    if answer.count < 10 ∨ strncmp testContents.length answer.bytes testContents ≠ 0 then
      return ([.unableToRead], session)
    else fileReadLoop handle turns session

/-- `FileRead`. -/
def fileRead (session : Session) (handle : Nat) (garbage : Garbage) :
    Except Fault (List Report × Session) := do
  let (opened, session) ← session.perform (.openAs handle garbage fileName)
  if opened.success then
    let (reports, session) ← fileReadLoop handle testTurns session
    let session ← session.step (.close handle)
    return (reports, session)
  else return ([.unableToOpen], session)

/-- `PerformanceTest`. -/
def performanceTest (session : Session) (handle : Nat) (garbage : Garbage) (buffer : Buffer) :
    Except Fault (List Report × Session) := do
  let (wrote, session) ← fileWrite session handle garbage buffer
  let (read, session) ← fileRead session handle garbage
  let (removed, session) ← session.perform (.remove garbage fileName)
  return (wrote ++ read ++ (if removed.success then [] else [.unableToRemove]), session)

variable {session : Session} {store : Files.Store (List Byte) Byte} {handle : Nat}
  {key contents : List Byte} {position : Nat}

/-- A handle that is open in the store is open in the session, at the same position. -/
theorem Represents.inRange (represents : Represents session store)
    (opened : store.handles handle = some (key, position)) {numBytes : Int}
    (small : position + numBytes < 2 ^ 31) : session.InRange handle numBytes id := by
  obtain ⟨freeMap, directory, shows_⟩ := represents
  obtain ⟨found, both, attached⟩ := shows_.opened opened
  rw [← attached.position] at small
  exact ⟨found, both, attached.position ▸ Int.natCast_nonneg _, small⟩

/-- No file is longer than files may be. -/
theorem Represents.short (represents : Represents session store)
    (held : (key, contents) ∈ store.shelf.entries) : contents.length ≤ maxFileSize := by
  obtain ⟨freeMap, directory, shows_⟩ := represents
  rw [shows_.shelf, Multiset.mem_coe] at held
  obtain ⟨entry, member, used, same⟩ := mem_shelved.mp held
  have valid := shows_.mounted.allocated.valid entry member used
  have short := valid.short
  have covers := valid.covers
  rw [← (Prod.mk.inj same).2, length_stored]
  have most : maxFileSize = 3840 := rfl
  have size : (sectorSize : Int) = 128 := rfl
  have direct : (numDirect : Int) = 30 := rfl
  rw [size] at covers
  omega

/-- `Open` for a client: it succeeds just when the store has a file of that name. -/
theorem Represents.openAs (represents : Represents session store) (handle : Nat)
    (garbage : Garbage) (name : List Byte) : ∃ answer after,
    session.perform (.openAs handle garbage name) = .ok (answer, after) ∧
      (answer.success = true ↔ kept name ∈ store.shelf.entries.map Prod.fst) ∧
      Represents after (store.setHandle handle (if answer.success then some (kept name, 0) else none)) :=
  represents.served (show session.Careful (.openAs handle garbage name) from trivial)

/-- `Read` answers with the number of bytes that it read. -/
theorem count_of_read {numBytes : Int} {answer : Answer} {after : Session}
    (done : session.perform (.read handle numBytes) = .ok (answer, after)) :
    answer.count = answer.bytes.length := by
  obtain ⟨found, -, done⟩ := Runs.bind_eq_ok.mp done
  obtain ⟨⟨bytes, file⟩, -, done⟩ := Runs.bind_eq_ok.mp done
  cases done
  rfl

/-- `Read` for a client. -/
theorem Represents.read (represents : Represents session store)
    (opened : store.handles handle = some (key, position))
    (held : (key, contents) ∈ store.shelf.entries) (count : Nat) (small : position + count < 2 ^ 31) :
    ∃ answer after, session.perform (.read handle count) = .ok (answer, after) ∧
      answer.bytes = Files.slice contents position count ∧ answer.count = answer.bytes.length ∧
      Represents after (store.setHandle handle (some (key, position + answer.bytes.length))) := by
  have careful : session.Careful (.read handle count) := represents.inRange opened (by omega)
  obtain ⟨answer, after, done, ⟨contents', position', shown, same⟩, represents'⟩ :=
    represents.served careful
  -- The handle shows one file only.
  obtain ⟨key', opened', held'⟩ := shown
  rw [opened, Option.some.injEq, Prod.mk.injEq] at opened'
  obtain ⟨rfl, rfl⟩ := opened'
  rw [store.shelf.unique held' held] at same
  refine ⟨answer, after, done, same, count_of_read done, ?_⟩
  rw [Session.event, Files.Store.apply, Files.Store.advance, opened] at represents'
  exact represents'

/-- The bytes of a buffer that was filled from a list are those of the list. -/
theorem cells_ofList (bytes : List Byte) : Blocks.cells (Buffer.ofList bytes) 0 bytes.length = bytes := by
  apply List.ext_getElem (Blocks.cells_length _ _ _)
  intro place inside inside'
  have read := Blocks.getElem?_cells (Buffer.ofList bytes) 0 inside'
  rw [Nat.zero_add, Buffer.ofList, List.getElem?_eq_getElem inside', Option.getD_some] at read
  exact (List.getElem?_eq_some_iff.mp read).2

/-- `Write` for a client. -/
theorem Represents.write (represents : Represents session store)
    (opened : store.handles handle = some (key, position))
    (held : (key, contents) ∈ store.shelf.entries) (buffer : Buffer) (bytes : List Byte)
    (small : position + bytes.length < 2 ^ 31) : ∃ answer after,
      session.perform (.write handle buffer (Buffer.ofList bytes) bytes.length) = .ok (answer, after) ∧
      answer.count = (min bytes.length (contents.length - position) : Nat) ∧
      Represents after ({ store with shelf := store.shelf.overwrite key position bytes }.setHandle
        handle (some (key, position + min bytes.length (contents.length - position)))) := by
  have careful : session.Careful (.write handle buffer (Buffer.ofList bytes) bytes.length) :=
    represents.inRange opened (by omega)
  obtain ⟨answer, after, done, ⟨contents', position', shown, same⟩, represents'⟩ :=
    represents.served careful
  obtain ⟨key', opened', held'⟩ := shown
  rw [opened, Option.some.injEq, Prod.mk.injEq] at opened'
  obtain ⟨rfl, rfl⟩ := opened'
  rw [store.shelf.unique held' held, Int.toNat_natCast, Blocks.cells_length] at same
  refine ⟨answer, after, done, same, ?_⟩
  rw [Session.event, Files.Store.apply, opened, same, Int.toNat_natCast, Int.toNat_natCast,
    cells_ofList] at represents'
  dsimp only at represents'
  have overwritten : store.overwriteAt handle position bytes =
      { store with shelf := store.shelf.overwrite key position bytes } := by
    rw [Files.Store.overwriteAt, opened]
  rw [overwritten, Files.Store.advance] at represents'
  simpa only [opened] using represents'

/-- The loop of `Copy` writes what is left of the UNIX file behind what it has written. -/
theorem Represents.copyLoop (buffer : Buffer) {turns : Nat} : ∀ {rest : List Byte} {session : Session}
    {store : Files.Store (List Byte) Byte} {position : Nat} {contents : List Byte},
    rest.length < turns → Represents session store →
    store.handles handle = some (key, position) → (key, contents) ∈ store.shelf.entries →
    contents.length = position + rest.length →
    ∃ after store', Filesys.copyLoop handle buffer turns rest session = .ok after ∧
      Represents after store' ∧
      (key, Files.splice contents position rest) ∈ store'.shelf.entries := by
  induction turns with
  | zero => exact fun few => absurd few (Nat.not_lt_zero _)
  | succ turns ih =>
    intro rest session store position contents few represents opened held length
    rw [Filesys.copyLoop]
    by_cases ended : (rest.take transferSize).length > 0
    · -- A turn writes one buffer, and the later turns go on behind it.
      have short := represents.short held
      have most : maxFileSize = 3840 := rfl
      have chunk : (rest.take transferSize).length = min transferSize rest.length :=
        List.length_take
      have left : (rest.drop transferSize).length = rest.length - transferSize := List.length_drop
      obtain ⟨answer, middle, done, count, represents'⟩ :=
        represents.write opened held buffer (rest.take transferSize) (by omega)
      have whole : min (rest.take transferSize).length (contents.length - position) =
          (rest.take transferSize).length := by omega
      rw [whole] at represents'
      obtain ⟨after, store', finished, represents'', held'⟩ := @ih (rest.drop transferSize) middle _
        _ (Files.splice contents position (rest.take transferSize)) (by omega) represents'
        (Function.update_self ..) (Files.Shelf.mem_overwrite _ _ held)
        (by rw [Files.length_splice]; omega)
      rw [Files.splice_splice, List.take_append_drop] at held'
      refine ⟨after, store', ?_, represents'', held'⟩
      rw [if_pos ended, Session.step, done]
      exact finished
    · -- Nothing is left to be written.
      have nothing : rest = [] := by
        rw [List.length_take, transferSize] at ended
        exact List.eq_nil_of_length_eq_zero (by omega)
      subst nothing
      refine ⟨session, store, if_neg ended, represents, ?_⟩
      have same : Files.splice contents position [] = contents := by simp [Files.splice]
      rwa [same]

/-- `Copy` answers, and when it created a file, the store has the bytes under its name. -/
theorem Represents.copy (represents : Represents session store) (handle : Nat) (garbage : Garbage)
    (buffer : Buffer) {bytes : List Byte} (short : bytes.length ≤ maxFileSize) (to_ : List Byte) :
    ∃ success after store', Filesys.copy session handle garbage buffer bytes to_ = .ok (success, after) ∧
      Represents after store' ∧
      (success = true → (kept to_, bytes) ∈ store'.shelf.entries) ∧
      (success = true ↔ kept to_ ∉ store.shelf.entries.map Prod.fst ∧
        store.shelf.entries.card < limits.files ∧
        limits.price bytes.length + store.shelf.cost limits.price ≤ limits.space) := by
  have most : maxFileSize = 3840 := rfl
  have size : (BitVec.ofNat 32 bytes.length).toInt = bytes.length := by
    rw [BitVec.toInt_ofNat', Int.bmod_def]
    omega
  have careful : session.Careful (.create garbage to_ (BitVec.ofNat 32 bytes.length)) := by
    rw [Session.Careful, size]
    omega
  obtain ⟨created, first, done, ⟨room, length⟩, represents'⟩ := represents.served careful
  rw [size, Int.toNat_natCast] at room length
  rw [Filesys.copy, done, Runs.ok_bind]
  dsimp only
  by_cases success : created.success = true
  · rw [Session.event, Files.Store.apply, if_pos success] at represents'
    have fresh := (room.mp success).1
    generalize first.fs.whole garbage to_ = contents at *
    have held := Files.Shelf.entries_add store.shelf contents fresh ▸ Multiset.mem_cons_self _ _
    -- `Open` finds the file that was just created, so its `ASSERT` holds.
    obtain ⟨opened, second, done', found, represents''⟩ := represents'.openAs handle garbage to_
    have there := found.mpr (Multiset.mem_map_of_mem Prod.fst held)
    rw [if_pos there] at represents''
    have whole : contents.length = 0 + bytes.length := by rw [length success, Nat.zero_add]
    obtain ⟨third, store', copied, represents₃, held'⟩ := represents''.copyLoop buffer
      (Nat.lt_succ_self bytes.length) (Function.update_self ..) held whole
    rw [Files.splice_all (length success).symm] at held'
    -- Closing the file changes the handles only.
    obtain ⟨answer, after, done₃, -, represents₄⟩ :=
      represents₃.served (show third.Careful (.close handle) from trivial)
    refine ⟨true, after, _, ?_, represents₄, fun _ => held', iff_of_true rfl (room.mp success)⟩
    rw [if_pos success, done', Runs.ok_bind]
    dsimp only
    rw [if_pos there, copied, Runs.ok_bind, Session.step, done₃]
    rfl
  · rw [Session.event, Files.Store.apply, if_neg success] at represents'
    refine ⟨false, first, store, ?_, represents', fun absurd_ => by simp at absurd_,
      iff_of_false Bool.false_ne_true fun free => success (room.mpr free)⟩
    rw [if_neg success]
    rfl

/-- The loop of `Print` shows the file from the position on. -/
theorem Represents.printLoop {turns : Nat} : ∀ {session : Session}
    {store : Files.Store (List Byte) Byte} {position : Nat},
    contents.length < position + turns → position ≤ contents.length → Represents session store →
    store.handles handle = some (key, position) → (key, contents) ∈ store.shelf.entries →
    ∃ after store', Filesys.printLoop handle turns session =
      .ok (some (contents.drop position), after) ∧ Represents after store' := by
  induction turns with
  | zero => intro session store position enough inside; omega
  | succ turns ih =>
    intro session store position enough inside represents opened held
    have short := represents.short held
    have most : maxFileSize = 3840 := rfl
    have size : transferSize = 10 := rfl
    obtain ⟨answer, middle, done, bytes, count, represents'⟩ :=
      represents.read opened held transferSize (by omega)
    have length : answer.bytes.length = min transferSize (contents.length - position) := by
      rw [bytes, Files.slice, List.length_take, List.length_drop]
    by_cases ended : answer.count > 0
    · -- A turn shows one buffer, and the later turns what is behind it.
      obtain ⟨after, store', shown, represents''⟩ := @ih middle _ (position + answer.bytes.length)
        (by omega) (by omega) represents' (Function.update_self ..) held
      refine ⟨after, store', ?_, represents''⟩
      rw [Filesys.printLoop, done, Runs.ok_bind]
      dsimp only
      rw [if_pos ended, shown]
      have joined : answer.bytes ++ contents.drop (position + answer.bytes.length) =
          contents.drop position := by
        rw [bytes, Files.slice, ← List.drop_drop]
        exact List.prefix_iff_eq_append.mp (List.take_prefix _ _)
      exact congrArg (fun bytes => Except.ok (some bytes, after)) joined
    · -- Nothing is left to be read.
      refine ⟨middle, _, ?_, represents'⟩
      rw [Filesys.printLoop, done, Runs.ok_bind]
      dsimp only
      rw [if_neg ended, List.drop_eq_nil_of_le (by omega)]
      rfl

/-- `Print` shows the file of the name that it was asked for. -/
theorem Represents.print (represents : Represents session store) (handle : Nat) (garbage : Garbage)
    {name : List Byte} (held : (kept name, contents) ∈ store.shelf.entries) {turns : Nat}
    (enough : contents.length < turns) : ∃ after,
      Filesys.print session handle garbage name turns = .ok (some (.text contents), after) := by
  obtain ⟨opened, first, done, found, represents'⟩ := represents.openAs handle garbage name
  have there := found.mpr (Multiset.mem_map_of_mem Prod.fst held)
  rw [if_pos there] at represents'
  obtain ⟨second, store', shown, represents''⟩ := represents'.printLoop
    (by omega : contents.length < 0 + turns) (Nat.zero_le _) (Function.update_self ..) held
  obtain ⟨answer, after, done', -⟩ :=
    represents''.served (show second.Careful (.close handle) from trivial)
  refine ⟨after, ?_⟩
  rw [Filesys.print, done, Runs.ok_bind]
  dsimp only
  rw [if_pos there, shown, Runs.ok_bind]
  dsimp only
  rw [Session.step, done']
  rfl

/-- A request that does not remove the file of a name, nor writes to it. -/
def Session.Spares (session : Session) (name : List Byte) : Request → Prop
  | .remove _ other => kept other ≠ kept name
  | .write handle _ _ _ | .writeAt handle _ _ _ _ =>
    ∀ found, session.handles handle = some found → kept found.name ≠ kept name
  | _ => True

/-- A request that leaves a file alone does so in the store, too. -/
theorem Represents.spares (represents : Represents session store) {name : List Byte}
    {request : Request} (spares : session.Spares name request) (answer : Answer) (after : Session) :
    store.Spares (kept name) (Session.event request answer after) := by
  obtain ⟨freeMap, directory, shows_⟩ := represents
  -- The file behind a handle has the same name in the session.
  have handles : ∀ handle, (∀ found, session.handles handle = some found →
      kept found.name ≠ kept name) → ∀ other position,
      store.handles handle = some (other, position) → other ≠ kept name := by
    intro handle elsewhere other position opened same
    obtain ⟨found, both, attached⟩ := shows_.opened opened
    exact elsewhere found both (attached.name.symm.trans same)
  cases request with
  | remove _ other => exact spares
  | write handle _ _ _ => exact handles handle spares
  | writeAt handle _ _ _ _ => exact handles handle spares
  | _ => exact trivial

/-- A session that was reached is a store of files. -/
theorem represents_of_reachable
    (reached : Runs.Reachable Session.step Session.Started Session.Careful session) :
    ∃ store, Represents session store := by
  refine reached.invariant (fun session => ∃ store, Represents session store) ?_ ?_
  · exact fun session started => ⟨.empty, represents_started started⟩
  · rintro session request after ⟨store, represents⟩ careful stepped
    exact ⟨_, (represents.stepped careful stepped).2⟩

/--
What `Copy` stored is what `Print` shows, however late.

`Copy` answers for every UNIX file that is small enough. If there was room for it, and whatever
careful programs do afterwards to other files, and however often Nachos is started again, `Print`
ends and shows exactly the bytes that were copied, by any name that begins alike.
-/
theorem print_copied
    (reached : Runs.Reachable Session.step Session.Started Session.Careful session)
    (handle : Nat) (garbage : Garbage) (buffer : Buffer) {bytes : List Byte}
    (short : bytes.length ≤ maxFileSize) (to_ : List Byte) :
    ∃ success after, copy session handle garbage buffer bytes to_ = .ok (success, after) ∧
      (success = true → ∀ later, Runs.Reachable Session.step (fun state => state = after)
        (fun state request => state.Careful request ∧ state.Spares to_ request) later →
        ∀ (handle' : Nat) (garbage' : Garbage) (name : List Byte) (turns : Nat),
          strncmp fileNameMaxLen name to_ = 0 → bytes.length < turns →
          ∃ last, print later handle' garbage' name turns = .ok (some (.text bytes), last)) := by
  obtain ⟨store, represents⟩ := represents_of_reachable reached
  obtain ⟨success, after, store', done, represents', held, -⟩ :=
    represents.copy handle garbage buffer short to_
  refine ⟨success, after, done, fun succeeded later reached' handle' garbage' name turns same enough => ?_⟩
  -- The store keeps the file as long as nobody writes to it.
  have inv := reached'.invariant (fun state => ∃ store, Represents state store ∧
    (kept to_, bytes) ∈ store.shelf.entries) ?_ ?_
  · obtain ⟨last, represents'', held'⟩ := inv
    rw [← show kept name = kept to_ from strncmp_eq_zero_iff.mp same] at held'
    exact represents''.print handle' garbage' held' enough
  · rintro state rfl
    exact ⟨store', represents', held succeeded⟩
  · rintro state request next ⟨store, represents, held⟩ ⟨careful, spares⟩ stepped
    obtain ⟨answer, next', performed, -, represents'⟩ := represents.served careful
    rw [Session.step, performed, Runs.ok_bind] at stepped
    cases stepped
    exact ⟨_, represents', Files.Store.mem_apply held (represents.spares spares answer next)⟩

/-- A UNIX file of 25 bytes that all differ. -/
def sample : List Byte := (List.range 25).map (BitVec.ofNat 8)

/-- A file that was copied onto a disk just formatted is printed as it was. -/
theorem print_copied_sample : ∃ fs after last,
    FileSystem.format (fun _ => 255) leftovers = .ok fs ∧
    copy ⟨fs, fun _ => none⟩ 0 leftovers (fun _ => 7) sample [66] = .ok (true, after) ∧
    print after 1 leftovers [66] 26 = .ok (some (.text sample), last) := by
  have answer : (match FileSystem.format (fun _ => 255) leftovers with
    | .error _ => false
    | .ok fs =>
      match copy ⟨fs, fun _ => none⟩ 0 leftovers (fun _ => 7) sample [66] with
      | .error _ => false
      | .ok (success, _) => success) = true := by decide +kernel
  split at answer
  · cases answer
  · rename_i fs formatted
    have started : Session.Started ⟨fs, fun _ => none⟩ := ⟨⟨_, _, formatted⟩, rfl⟩
    have short : sample.length ≤ maxFileSize := by decide
    obtain ⟨success, after, done, shown⟩ :=
      print_copied (.start started) 0 leftovers (fun _ => 7) short [66]
    rw [done] at answer
    dsimp only at answer
    obtain ⟨last, printed⟩ := shown answer after (.start rfl) 1 leftovers [66] 26 (by decide) (by decide)
    exact ⟨fs, after, last, formatted, answer ▸ done, printed⟩

/-- No handle of the store is on the file of the stress test. -/
def Untouched (store : Files.Store (List Byte) Byte) : Prop :=
  ∀ handle name position, store.handles handle = some (name, position) → name ≠ kept fileName

/-- A handle that is closed is not on the file of the stress test. -/
theorem Untouched.close (untouched : Untouched store) {closed : Files.Store (List Byte) Byte}
    (same : ∀ other, other ≠ handle → closed.handles other = store.handles other) :
    Untouched (closed.setHandle handle none) := by
  intro other name position opened
  simp only [Files.Store.setHandle] at opened
  by_cases here : other = handle
  · rw [here, Function.update_self] at opened
    cases opened
  · rw [Function.update_of_ne here, same other here] at opened
    exact untouched other name position opened

/-- Other handles stay what they are. -/
theorem setHandle_other (store : Files.Store (List Byte) Byte) (value : Option (List Byte × Nat))
    {other : Nat} (differ : other ≠ handle) :
    (store.setHandle handle value).handles other = store.handles other :=
  Function.update_of_ne differ _ _

/-- `Close` for a client. -/
theorem Represents.close (represents : Represents session store) (handle : Nat) :
    ∃ after, session.step (.close handle) = .ok after ∧
      Represents after (store.setHandle handle none) := by
  obtain ⟨answer, after, done, -, represents'⟩ :=
    represents.served (show session.Careful (.close handle) from trivial)
  exact ⟨after, by rw [Session.step, done]; rfl, represents'⟩

/-- `FileWrite` creates an empty file at most, and never gets to write into it. -/
theorem Represents.fileWrite (represents : Represents session store) (untouched : Untouched store)
    (handle : Nat) (garbage : Garbage) (buffer : Buffer) : ∃ reports after store',
      Filesys.fileWrite session handle garbage buffer = .ok (reports, after) ∧
      Represents after store' ∧ Untouched store' ∧
      (reports = [.cannotCreate] ∧ store'.shelf.entries = store.shelf.entries ∨
        reports = [.unableToWrite] ∧ kept fileName ∉ store.shelf.entries.map Prod.fst ∧
        store'.shelf.entries = (kept fileName, []) ::ₘ store.shelf.entries) := by
  have careful : session.Careful (.create garbage fileName 0) := by
    simp only [Session.Careful]
    decide
  obtain ⟨created, first, done, ⟨room, length⟩, represents'⟩ := represents.served careful
  rw [Filesys.fileWrite, done, Runs.ok_bind]
  dsimp only
  by_cases success : created.success = true
  · rw [Session.event, Files.Store.apply, if_pos success] at represents'
    have fresh := (room.mp success).1
    -- The new file has no bytes.
    have empty := List.eq_nil_of_length_eq_zero (length success)
    rw [empty] at represents'
    have added := Files.Shelf.entries_add store.shelf [] fresh
    have held := added ▸ Multiset.mem_cons_self (kept fileName, []) store.shelf.entries
    obtain ⟨opened, second, done', found, represents''⟩ := represents'.openAs handle garbage fileName
    have there := found.mpr (Multiset.mem_map_of_mem Prod.fst held)
    rw [if_pos there] at represents''
    obtain ⟨answer, third, done₃, count, represents₃⟩ := represents''.write (Function.update_self ..)
      held buffer testContents (by decide)
    obtain ⟨after, done₄, represents₄⟩ := represents₃.close handle
    have none : answer.count < 10 := by
      rw [count]
      decide
    -- So the first turn of the loop is the last one.
    have looped : fileWriteLoop handle buffer testTurns second = .ok ([.unableToWrite], third) := by
      rw [testTurns, fileWriteLoop, done₃, Runs.ok_bind]
      dsimp only
      rw [if_pos none]
      rfl
    refine ⟨[.unableToWrite], after, _, ?_, represents₄, untouched.close fun other differ => ?_,
      .inr ⟨rfl, fresh, ?_⟩⟩
    · rw [if_pos success, done', Runs.ok_bind]
      dsimp only
      rw [if_pos there, looped, Runs.ok_bind]
      dsimp only
      rw [done₄]
      rfl
    · rw [setHandle_other _ _ differ]
      exact setHandle_other _ _ differ
    · exact (congrArg Files.Shelf.entries
        (Files.Shelf.overwrite_of_le held (Nat.zero_le 0) testContents)).trans added
  · rw [Session.event, Files.Store.apply, if_neg success] at represents'
    refine ⟨[.cannotCreate], first, store, ?_, represents', untouched, .inl ⟨rfl, rfl⟩⟩
    rw [if_neg success]
    rfl

/-- The loop of `FileRead` fails, because no file is as long as it expects. -/
theorem Represents.fileReadLoop {turns : Nat} : ∀ {session : Session}
    {store : Files.Store (List Byte) Byte} {position : Nat},
    contents.length < position + 10 * turns → position ≤ contents.length → Represents session store →
    store.handles handle = some (key, position) → (key, contents) ∈ store.shelf.entries →
    ∃ after store', Filesys.fileReadLoop handle turns session = .ok ([.unableToRead], after) ∧
      Represents after store' ∧ store'.shelf = store.shelf ∧
      ∀ other, other ≠ handle → store'.handles other = store.handles other := by
  induction turns with
  | zero => intro session store position enough inside; omega
  | succ turns ih =>
    intro session store position enough inside represents opened held
    have short := represents.short held
    have most : maxFileSize = 3840 := rfl
    have size : testContents.length = 10 := rfl
    obtain ⟨answer, middle, done, bytes, count, represents'⟩ :=
      represents.read opened held testContents.length (by omega)
    rw [Filesys.fileReadLoop, done, Runs.ok_bind]
    dsimp only
    split
    · exact ⟨middle, _, rfl, represents', rfl, fun other differ => setHandle_other _ _ differ⟩
    · -- A turn that succeeds moves on by ten bytes.
      rename_i fine
      rw [not_or, not_lt] at fine
      have length : answer.bytes.length = min 10 (contents.length - position) := by
        rw [bytes, Files.slice, List.length_take, List.length_drop, size]
      obtain ⟨after, store', failed, represents'', shelf, handles⟩ := @ih middle _
        (position + answer.bytes.length) (by omega) (by omega) represents' (Function.update_self ..)
        held
      exact ⟨after, store', failed, represents'', shelf, fun other differ =>
        (handles other differ).trans (setHandle_other _ _ differ)⟩

/-- `FileRead` never gets through. -/
theorem Represents.fileRead (represents : Represents session store) (untouched : Untouched store)
    (handle : Nat) (garbage : Garbage) : ∃ reports after store',
      Filesys.fileRead session handle garbage = .ok (reports, after) ∧ Represents after store' ∧
      Untouched store' ∧ store'.shelf = store.shelf ∧
      (reports = [.unableToRead] ∧ kept fileName ∈ store.shelf.entries.map Prod.fst ∨
        reports = [.unableToOpen] ∧ kept fileName ∉ store.shelf.entries.map Prod.fst) := by
  obtain ⟨opened, first, done, found, represents'⟩ := represents.openAs handle garbage fileName
  rw [Filesys.fileRead, done, Runs.ok_bind]
  dsimp only
  by_cases there : opened.success = true
  · have listed := found.mp there
    obtain ⟨⟨key, contents⟩, held, same⟩ := Multiset.mem_map.mp listed
    cases same
    rw [if_pos there] at represents'
    have short := represents.short held
    have most : maxFileSize = 3840 := rfl
    obtain ⟨second, store', looped, represents'', shelf, handles⟩ := represents'.fileReadLoop
      (show contents.length < 0 + 10 * testTurns by rw [testTurns]; omega) (Nat.zero_le _)
      (Function.update_self ..) held
    obtain ⟨after, done', represents₃⟩ := represents''.close handle
    refine ⟨[.unableToRead], after, _, ?_, represents₃, untouched.close fun other differ => ?_,
      shelf, .inl ⟨rfl, listed⟩⟩
    · rw [if_pos there, looped, Runs.ok_bind]
      dsimp only
      rw [done']
      rfl
    · rw [handles other differ]
      exact setHandle_other _ _ differ
  · rw [if_neg there] at represents'
    refine ⟨[.unableToOpen], first, _, ?_, represents', untouched.close fun _ _ => rfl, rfl,
      .inr ⟨rfl, fun listed => there (found.mpr listed)⟩⟩
    rw [if_neg there]
    rfl

/-- `Remove` for a client. -/
theorem Represents.remove (represents : Represents session store) (untouched : Untouched store)
    (garbage : Garbage) : ∃ answer after store',
      session.perform (.remove garbage fileName) = .ok (answer, after) ∧ Represents after store' ∧
      (answer.success = true ↔ kept fileName ∈ store.shelf.entries.map Prod.fst) ∧
      store'.shelf.entries = store.shelf.entries.filter fun file => file.1 ≠ kept fileName := by
  have careful : session.Careful (.remove garbage fileName) := by
    intro other found opened agree
    obtain ⟨freeMap, directory, shows_⟩ := represents
    obtain ⟨value, both, attached⟩ := shows_.attached opened
    exact untouched other value.1 value.2 both
      (attached.name.trans (strncmp_eq_zero_iff.mp agree))
  obtain ⟨answer, after, done, allowed, represents'⟩ := represents.served careful
  refine ⟨answer, after, _, done, represents', allowed, ?_⟩
  rw [Session.event, Files.Store.apply]
  split
  · rfl
  · -- Where there is no such file, taking it away changes nothing.
    rename_i refused
    refine (Multiset.filter_eq_self.mpr fun file listed same => ?_).symm
    exact refused (allowed.mpr (Multiset.mem_map.mpr ⟨file, listed, same⟩))

/--
The stress test never gets through, and what it leaves behind is one file less at most.

A file that it creates is empty, so that nothing can be written to it; a file of that name that was
there before is too short to be read to the end, and is removed all the same.
-/
theorem performanceTest_fails
    (reached : Runs.Reachable Session.step Session.Started Session.Careful session)
    (closed : ∀ handle found, session.handles handle = some found →
      strncmp fileNameMaxLen found.name fileName ≠ 0)
    (handle : Nat) (garbage : Garbage) (buffer : Buffer) :
    ∃ store store' reports after, Represents session store ∧ Represents after store' ∧
      performanceTest session handle garbage buffer = .ok (reports, after) ∧
      (reports = [.unableToWrite, .unableToRead] ∨ reports = [.cannotCreate, .unableToRead] ∨
        reports = [.cannotCreate, .unableToOpen, .unableToRemove]) ∧
      store'.shelf.entries = store.shelf.entries.filter fun file => file.1 ≠ kept fileName := by
  obtain ⟨store, represents⟩ := represents_of_reachable reached
  have untouched : Untouched store := by
    intro other name position opened same
    obtain ⟨freeMap, directory, shows_⟩ := represents
    obtain ⟨found, both, attached⟩ := shows_.opened opened
    exact closed other found both (strncmp_eq_zero_iff.mpr (attached.name.symm.trans same))
  obtain ⟨wrote, first, store₁, done, represents₁, untouched₁, written⟩ :=
    represents.fileWrite untouched handle garbage buffer
  obtain ⟨read, second, store₂, done', represents₂, untouched₂, shelf, shown⟩ :=
    represents₁.fileRead untouched₁ handle garbage
  obtain ⟨answer, after, store₃, done₃, represents₃, removed, left⟩ :=
    represents₂.remove untouched₂ garbage
  rw [shelf] at removed left
  have ran : performanceTest session handle garbage buffer = .ok (wrote ++ read ++
      (if answer.success then [] else [.unableToRemove]), after) := by
    rw [performanceTest, done, Runs.ok_bind]
    dsimp only
    rw [done', Runs.ok_bind]
    dsimp only
    rw [done₃]
    rfl
  refine ⟨store, store₃, _, after, represents, represents₃, ran, ?_, left.trans ?_⟩
  · rcases written with ⟨rfl, same⟩ | ⟨rfl, fresh, added⟩
    · rcases shown with ⟨rfl, there⟩ | ⟨rfl, missing⟩
      · exact .inr (.inl (by rw [if_pos (removed.mpr there)]; rfl))
      · exact .inr (.inr (by rw [if_neg fun success => missing (removed.mp success)]; rfl))
    · -- The new file is found, and removed again.
      have there : kept fileName ∈ store₁.shelf.entries.map Prod.fst := by
        rw [added, Multiset.map_cons]
        exact Multiset.mem_cons_self _ _
      rcases shown with ⟨rfl, -⟩ | ⟨-, missing⟩
      · exact .inl (by rw [if_pos (removed.mpr there)]; rfl)
      · exact absurd there missing
  · rcases written with ⟨-, same⟩ | ⟨-, fresh, added⟩
    · rw [same]
    · rw [added, Multiset.filter_cons_of_neg]
      exact not_not.mpr rfl

/-- On a disk just formatted the stress test reports that it failed. -/
theorem performanceTest_fails_formatted : ∃ fs reports after,
    FileSystem.format (fun _ => 255) leftovers = .ok fs ∧
    performanceTest ⟨fs, fun _ => none⟩ 0 leftovers (fun _ => 7) = .ok (reports, after) ∧
    reports ≠ [] := by
  obtain ⟨fs, freeMap, directory, formatted, -⟩ := format_spec (fun _ => 255) leftovers
  have started : Session.Started ⟨fs, fun _ => none⟩ := ⟨⟨_, _, formatted⟩, rfl⟩
  obtain ⟨store, store', reports, after, -, -, ran, failed, -⟩ := performanceTest_fails
    (.start started) (fun handle found opened => by cases opened) 0 leftovers (fun _ => 7)
  refine ⟨fs, reports, after, formatted, ran, ?_⟩
  rcases failed with rfl | rfl | rfl <;> exact List.cons_ne_nil _ _

end Nachos.Filesys
