import Nachos.Filesys.Refinement

/-! Every request of a careful program is served as a store of files would serve it. -/

namespace Nachos.Filesys

variable {disk after : Disk} {freeMap freeMap' : BitMap} {directory directory' : Directory}
  {session : Session} {store : Files.Store (List Byte) Byte} {found : Handle}
  {value : List Byte × Nat} {name : List Byte} {handle : Nat}

/-- A request is served, and its answer and what it leaves are those of the store. -/
def Granted (session : Session) (store : Files.Store (List Byte) Byte) (request : Request) : Prop :=
  ∃ answer after, session.perform request = .ok (answer, after) ∧
    store.allows limits (Session.event request answer after) ∧
    Represents after (store.apply (Session.event request answer after))

/-- A handle stays on its file as long as an entry for its name leads to the same header. -/
theorem Attached.congr (attached : Attached disk directory found value)
    (kept : ∀ entry ∈ directory.table, entry.isFor found.name = true →
      entry ∈ directory'.table ∧ headerOf after entry.sector.toInt = headerOf disk entry.sector.toInt) :
    Attached after directory' found value := by
  obtain ⟨entry, member, named, header⟩ := attached.header
  obtain ⟨still, same⟩ := kept entry member named
  exact ⟨attached.name, attached.position, entry, still, named, header.trans same.symm⟩

/-- An entry that is not the one assigned to stays in the directory. -/
theorem mem_modify {entry other : DirectoryEntry} {place : Nat}
    (change : DirectoryEntry → DirectoryEntry) (located : directory.table[place]? = some other)
    (member : entry ∈ directory.table) (differ : entry ≠ other) :
    entry ∈ (directory.modify place change).table := by
  obtain ⟨index, listed⟩ := List.getElem?_of_mem member
  refine @List.mem_of_getElem? _ _ index _ ?_
  rw [Directory.getElem?_modify, if_neg ?_, listed]
  rintro rfl
  exact differ (Option.some.inj (listed.symm.trans located))

namespace Shows

/-- The names of the store are those that the directory finds. -/
theorem mem_names (shows_ : Shows session freeMap directory store) :
    kept name ∈ store.shelf.entries.map Prod.fst ↔ (directory.findIndex name).isSome := by
  rw [shows_.shelf, findIndex_isSome_iff, Multiset.map_coe, Multiset.mem_coe]

/-- A handle that is open in the session is open in the store. -/
theorem attached (shows_ : Shows session freeMap directory store)
    (opened : session.handles handle = some found) :
    ∃ value, store.handles handle = some value ∧
      Attached session.fs.disk directory found value := by
  have related := shows_.handles handle
  rw [opened] at related
  cases both : store.handles handle with
  | none =>
    rw [both] at related
    cases related
  | some value =>
    rw [both] at related
    cases related with
    | some attached => exact ⟨value, rfl, attached⟩

/-- A handle that is open in the store is open in the session. -/
theorem opened (shows_ : Shows session freeMap directory store)
    (opened : store.handles handle = some value) :
    ∃ found, session.handles handle = some found ∧
      Attached session.fs.disk directory found value := by
  have related := shows_.handles handle
  rw [opened] at related
  cases both : session.handles handle with
  | none =>
    rw [both] at related
    cases related
  | some found =>
    rw [both] at related
    cases related with
    | some attached => exact ⟨found, rfl, attached⟩

/-- The files show the same when another handle is opened, moved or closed. -/
theorem setHandle (shows_ : Shows session freeMap directory store) (handle : Nat)
    {new : Option Handle} {new' : Option (List Byte × Nat)}
    (related : Option.Rel (Attached session.fs.disk directory) new new') :
    Represents (session.setHandle handle new) (store.setHandle handle new') := by
  refine ⟨freeMap, directory, shows_.mounted, shows_.shelf, fun other => ?_⟩
  simp only [Session.setHandle, Files.Store.setHandle]
  by_cases same : other = handle
  · rw [same, Function.update_self, Function.update_self]
    exact related
  · rw [Function.update_of_ne same, Function.update_of_ne same]
    exact shows_.handles other

/-- What a handle shows in the store is the file that its header describes. -/
theorem file (shows_ : Shows session freeMap directory store)
    (attached : Attached session.fs.disk directory found value) :
    found.file.hdr.Valid ∧ found.file.hdr.sectors.Nodup ∧
      (value.1, stored session.fs.disk found.file.hdr) ∈ store.shelf.entries := by
  obtain ⟨entry, member, named, header⟩ := attached.header
  have used := (isFor_iff.mp named).1
  rw [header, shows_.shelf, attached.name]
  exact ⟨shows_.mounted.allocated.valid entry member used,
    (shows_.mounted.allocated.once member used).2, mem_shelved_of_isFor _ member named⟩

/-- A handle shows its file at its position. -/
theorem shows_handle (shows_ : Shows session freeMap directory store)
    (both : store.handles handle = some value)
    (attached : Attached session.fs.disk directory found value) :
    store.Shows handle (stored session.fs.disk found.file.hdr) value.2 :=
  ⟨value.1, both, (shows_.file attached).2.2⟩

/-- Writing through a handle writes over its file in the store. -/
theorem overwrite (shows_ : Shows session freeMap directory store)
    (both : store.handles handle = some value)
    (attached : Attached session.fs.disk directory found value) {position : Nat}
    {cells : List Byte}
    (written : stored after found.file.hdr =
      Files.splice (stored session.fs.disk found.file.hdr) position cells)
    (same : SameOutside found.file.hdr.sectors session.fs.disk after) :
    Shows (session.withDisk after) freeMap directory (store.overwriteAt handle position cells) ∧
      Attached after directory found value := by
  obtain ⟨entry, member, named, header⟩ := attached.header
  obtain ⟨used, key⟩ := isFor_iff.mp named
  rw [header] at written same
  obtain ⟨mounted, headers, others⟩ := shows_.mounted.wrote member used same
  have stays : ∀ {found' : Handle} {value' : List Byte × Nat},
      Attached session.fs.disk directory found' value' → Attached after directory found' value' :=
    fun attached' => attached'.congr fun other member' named' =>
      ⟨member', headers other member' (isFor_iff.mp named').1⟩
  refine ⟨⟨mounted, ?_, fun other => ?_⟩, stays attached⟩
  · -- The file of the entry is written over, the others keep their bytes.
    rw [Files.Store.overwriteAt, both]
    dsimp only
    rw [Files.Shelf.entries_overwrite, shows_.shelf, Multiset.map_coe, Multiset.coe_eq_coe]
    refine List.Perm.of_eq ?_
    rw [shelved, shelved, List.map_flatMap, List.flatMap_def, List.flatMap_def]
    congr 1
    refine List.map_congr_left fun other member' => ?_
    by_cases here : other = entry
    · subst here
      rw [Session.withDisk, fileOf, fileOf, if_pos used, if_pos used, List.map_singleton,
        Files.Shelf.rewrite, if_pos (by rw [attached.name, key]), headers _ member used, written]
    · rw [Session.withDisk, others other member' here]
      -- Another entry has another name.
      rw [fileOf]
      split
      · rename_i used'
        rw [List.map_singleton, Files.Shelf.rewrite, if_neg]
        intro same'
        exact here (shows_.mounted.allocated.names.eq_of_kept member' member used' used
          ((same'.trans attached.name).trans key.symm))
      · rfl
  · have related := shows_.handles other
    rw [Files.Store.overwriteAt, both]
    dsimp only [Session.withDisk]
    revert related
    cases session.handles other <;> cases store.handles other <;> intro related <;> cases related
    · exact .none
    · exact .some (stays ‹_›)

/-- Space and entries that are free in the store are free on the disk. -/
theorem hasRoom_iff (shows_ : Shows session freeMap directory store) (name : List Byte)
    (initialSize : BitVec 32) : HasRoom freeMap directory name initialSize ↔
      kept name ∉ store.shelf.entries.map Prod.fst ∧ store.shelf.entries.card < limits.files ∧
      limits.price initialSize.toInt.toNat + store.shelf.cost limits.price ≤ limits.space := by
  have space := shows_.mounted.numClear_add
  have cost : store.shelf.cost limits.price =
      ((shelved session.fs.disk directory).map fun file => sectorsFor file.2.length).sum := by
    rw [Files.Shelf.cost, shows_.shelf, Multiset.map_coe, Multiset.sum_coe]
    rfl
  have card : store.shelf.entries.card =
      directory.table.countP fun entry => entry.inUse := by
    rw [shows_.shelf, Multiset.coe_card, length_shelved]
  have price : limits.price initialSize.toInt.toNat =
      1 + (divRoundUp initialSize.toInt sectorSize).toNat := by
    have bounds := divRoundUp_bounds initialSize.toInt
    have size : sectorSize = 128 := rfl
    have size' : (sectorSize : Int) = 128 := rfl
    rw [limits, size']
    dsimp only
    rw [sectorsFor, size]
    omega
  have free : (∃ entry ∈ directory.table, entry.inUse = false) ↔
      store.shelf.entries.card < limits.files := by
    rw [card, limits]
    dsimp only
    rw [← directory.full, List.countP_lt_length_iff]
  rw [HasRoom, free, shows_.mem_names, cost, price, ← space]
  refine and_congr (by simp) (and_congr_right fun _ => ?_)
  omega

/-- All handles stay attached when no file that is open goes away. -/
theorem handles_congr (shows_ : Shows session freeMap directory store)
    (kept : ∀ handle found, session.handles handle = some found → ∀ entry ∈ directory.table,
      entry.isFor found.name = true → entry ∈ directory'.table ∧
        headerOf after entry.sector.toInt = headerOf session.fs.disk entry.sector.toInt)
    (handle : Nat) :
    Option.Rel (Attached after directory') (session.handles handle) (store.handles handle) := by
  have related := shows_.handles handle
  have stays := kept handle
  revert related stays
  cases session.handles handle <;> cases store.handles handle <;> intro related stays <;>
    cases related
  · exact .none
  · rename_i attached
    exact .some (attached.congr (stays _ rfl))

/-- `Create` adds a file if there is room for it. -/
theorem create (shows_ : Shows session freeMap directory store) (garbage : Garbage)
    (name : List Byte) {initialSize : BitVec 32} (small : initialSize.toInt ≤ maxFileSize) :
    Granted session store (.create garbage name initialSize) := by
  have allocated := shows_.mounted.allocated
  have room := shows_.hasRoom_iff name initialSize
  rcases create_exact shows_.mounted.keeps allocated garbage name small with
    ⟨refused, none⟩ | ⟨fs', freeMap', directory', place, entry, sector, new, done, created⟩
  · -- Without room the file system stays as it is.
    refine ⟨.of false, session, ?_, ⟨?_, ?_⟩, freeMap, directory, shows_⟩
    · rw [Session.perform, refused]
      rfl
    · exact iff_of_false Bool.false_ne_true fun free => none (room.mpr free)
    · exact fun success => absurd success Bool.false_ne_true
  · have perm := created.shelved_perm allocated
    have mounted := created.mounted shows_.mounted
    have fresh := (room.mp created.room).1
    have shown := mounted.whole_eq garbage (perm.mem_iff.mpr List.mem_cons_self)
    refine ⟨.of true, { session with fs := fs' }, ?_, ⟨?_, ?_⟩, freeMap', directory', mounted, ?_, ?_⟩
    · rw [Session.perform, done]
      rfl
    · exact iff_of_true rfl (room.mp created.room)
    · intro _
      rw [shown, length_stored, FileHeader.fileLength, created.numBytes]
    · -- The store has the new file, with what the disk shows of it.
      have added := Files.Shelf.entries_add _ (fs'.whole garbage name) fresh
      rw [shows_.shelf, Multiset.cons_coe] at added
      refine added.trans (Multiset.coe_eq_coe.mpr ?_)
      rw [shown]
      exact perm.symm
    · refine shows_.handles_congr fun handle found opened other member named => ?_
      have used := (isFor_iff.mp named).1
      -- An entry in use is not the one that was filled in.
      have differ : other ≠ entry := by
        rintro rfl
        rw [created.unused] at used
        cases used
      exact ⟨created.entered ▸ mem_modify _ created.located member differ,
        (allocated.file_congr created.same member used (created.apart allocated other member)).1⟩

/-- `Remove` takes a file away if there is one of that name. -/
theorem remove (shows_ : Shows session freeMap directory store) (garbage : Garbage)
    (name : List Byte) (closed : ∀ handle found, session.handles handle = some found →
      strncmp fileNameMaxLen found.name name ≠ 0) :
    Granted session store (.remove garbage name) := by
  have allocated := shows_.mounted.allocated
  have names := @mem_names _ _ _ _ name shows_
  rcases remove_exact shows_.mounted.keeps allocated garbage name with
    ⟨refused, missing⟩ | ⟨fs', freeMap', place, entry, done, removed⟩
  · -- A name that is not there makes no difference.
    refine ⟨.of false, session, ?_, iff_of_false Bool.false_ne_true ?_, freeMap, directory, shows_⟩
    · rw [Session.perform, refused]
      rfl
    · rw [names, missing]
      exact Bool.false_ne_true
  · have perm := removed.shelved_perm allocated
    have member := List.mem_of_getElem? removed.located
    have key : kept entry.name.1 = kept name := by
      obtain ⟨other, located, -, agrees⟩ := Directory.findIndex_eq_some removed.found
      rw [removed.located, Option.some.injEq] at located
      exact strncmp_eq_zero_iff.mp (located ▸ agrees)
    refine ⟨.of true, { session with fs := fs' }, ?_, iff_of_true rfl ?_, freeMap', _,
      removed.mounted shows_.mounted, ?_, ?_⟩
    · rw [Session.perform, done]
      rfl
    · rw [names, removed.found]
      rfl
    · -- The file that goes away is the only one of its name.
      have left := Files.Shelf.entries_drop store.shelf (kept name)
      rw [shows_.shelf, Multiset.filter_coe] at left
      refine left.trans (Multiset.coe_eq_coe.mpr ?_)
      have once := allocated.names.nodup session.fs.disk
      rw [(perm.map _).nodup_iff, List.map_cons, List.nodup_cons, key] at once
      refine (perm.filter _).trans (List.Perm.of_eq ?_)
      rw [List.filter_cons_of_neg (by simp [key]), List.filter_eq_self]
      intro file listed
      rw [decide_eq_true_eq]
      exact fun same => once.1 (List.mem_map.mpr ⟨file, listed, same⟩)
    · refine shows_.handles_congr fun handle found opened other member' named => ?_
      obtain ⟨used, same⟩ := isFor_iff.mp named
      -- No handle is open on the file that goes away.
      have differ : other ≠ entry := by
        rintro rfl
        exact closed handle found opened (strncmp_eq_zero_iff.mpr (same.symm.trans key))
      exact ⟨mem_modify _ removed.located member' differ,
        (allocated.file_congr removed.same member' used fun sector listed =>
          allocated.apart_system member' listed).1⟩

/-- `Open` opens a file at its beginning if there is one of that name. -/
theorem openAs (shows_ : Shows session freeMap directory store) (handle : Nat) (garbage : Garbage)
    (name : List Byte) : Granted session store (.openAs handle garbage name) := by
  have names := @mem_names _ _ _ _ name shows_
  rcases shows_.mounted.openFile garbage name with
    ⟨refused, missing⟩ | ⟨entry, member, named, opened⟩
  · refine ⟨.of false, session.setHandle handle none, ?_, iff_of_false Bool.false_ne_true ?_,
      shows_.setHandle handle .none⟩
    · rw [Session.perform, refused]
      rfl
    · rw [names, missing]
      exact Bool.false_ne_true
  · refine ⟨.of true, session.setHandle handle (some ⟨name, ⟨_, 0⟩⟩), ?_, iff_of_true rfl ?_,
      shows_.setHandle handle (.some ⟨rfl, rfl, entry, member, named, rfl⟩)⟩
    · rw [Session.perform, opened]
      rfl
    · rw [shows_.shelf, Multiset.map_coe, Multiset.mem_coe]
      exact List.mem_map_of_mem (mem_shelved_of_isFor _ member named)

/-- `Seek` moves the position of a handle. -/
theorem seek (shows_ : Shows session freeMap directory store) {position : Int}
    (inside : session.InRange handle 0 fun _ => position) :
    Granted session store (.seek handle position) := by
  obtain ⟨found, opened, natural, -⟩ := inside
  obtain ⟨value, both, attached⟩ := shows_.attached opened
  refine ⟨.done, session.setHandle handle (some { found with file := found.file.seek position }), ?_,
    ⟨_, _, shows_.shows_handle both attached⟩, ?_⟩
  · rw [Session.perform, Session.find, opened]
    rfl
  · rw [Session.event, Files.Store.apply, both]
    exact shows_.setHandle handle (.some ⟨attached.name, (Int.toNat_of_nonneg natural).symm,
      attached.header⟩)

/-- `ReadAt` answers with a part of the file. -/
theorem readAt (shows_ : Shows session freeMap directory store) {numBytes position : Int}
    (inside : session.InRange handle numBytes fun _ => position) :
    Granted session store (.readAt handle numBytes position) := by
  obtain ⟨found, opened, natural, -⟩ := inside
  obtain ⟨value, both, attached⟩ := shows_.attached opened
  obtain ⟨start, rfl⟩ := Int.eq_ofNat_of_zero_le natural
  have read := OpenFile.readAt_slice (shows_.file attached).1 session.fs.disk numBytes start
  have done : session.perform (.readAt handle numBytes start) = .ok (.read
      (Files.slice (stored session.fs.disk found.file.hdr) start numBytes.toNat), session) := by
    rw [Session.perform, Session.find, opened, Runs.ok_bind, read]
    rfl
  exact ⟨_, _, done, ⟨_, _, shows_.shows_handle both attached, rfl⟩, freeMap, directory, shows_⟩

/-- `Read` answers with the file from the position on, and moves the position behind it. -/
theorem read (shows_ : Shows session freeMap directory store) {numBytes : Int}
    (inside : session.InRange handle numBytes id) :
    Granted session store (.read handle numBytes) := by
  obtain ⟨found, opened, -, -⟩ := inside
  obtain ⟨value, both, attached⟩ := shows_.attached opened
  have read := OpenFile.readAt_slice (shows_.file attached).1 session.fs.disk numBytes value.2
  generalize bytes : Files.slice (stored session.fs.disk found.file.hdr) value.2 numBytes.toNat =
    answer at read
  have done : session.perform (.read handle numBytes) = .ok (.read answer, session.setHandle handle
      (some ⟨found.name, ⟨found.file.hdr, value.2 + answer.length⟩⟩)) := by
    rw [Session.perform, Session.find, opened, Runs.ok_bind, OpenFile.read, attached.position, read]
    rfl
  refine ⟨_, _, done, ⟨_, _, shows_.shows_handle both attached, bytes.symm⟩, ?_⟩
  rw [Session.event, Files.Store.apply, Files.Store.advance, both]
  exact shows_.setHandle handle (.some ⟨attached.name, rfl, attached.header⟩)

/-- `WriteAt` writes over a part of the file. -/
theorem writeAt (shows_ : Shows session freeMap directory store) (garbage source : Buffer)
    {numBytes position : Int} (inside : session.InRange handle numBytes fun _ => position) :
    Granted session store (.writeAt handle garbage source numBytes position) := by
  obtain ⟨found, opened, natural, -⟩ := inside
  obtain ⟨value, both, attached⟩ := shows_.attached opened
  obtain ⟨valid, distinct, -⟩ := shows_.file attached
  obtain ⟨start, rfl⟩ := Int.eq_ofNat_of_zero_le natural
  obtain ⟨after, wrote, written, same⟩ :=
    OpenFile.writeAt_splice valid distinct session.fs.disk garbage source numBytes start
  have done : session.perform (.writeAt handle garbage source numBytes start) = .ok (.wrote
      (min numBytes.toNat (found.file.hdr.fileLength.toNat - start) : Nat),
      session.withDisk after) := by
    rw [Session.perform, Session.find, opened, Runs.ok_bind, wrote]
    rfl
  refine ⟨_, _, done, ⟨_, _, shows_.shows_handle both attached, ?_⟩, freeMap, directory,
    (shows_.overwrite both attached written same).1⟩
  rw [Blocks.cells_length, length_stored]
  rfl

/-- `Write` writes over the file from the position on, and moves the position behind it. -/
theorem write (shows_ : Shows session freeMap directory store) (garbage source : Buffer)
    {numBytes : Int} (inside : session.InRange handle numBytes id) :
    Granted session store (.write handle garbage source numBytes) := by
  obtain ⟨found, opened, -, -⟩ := inside
  obtain ⟨value, both, attached⟩ := shows_.attached opened
  obtain ⟨valid, distinct, -⟩ := shows_.file attached
  obtain ⟨after, wrote, written, same⟩ :=
    OpenFile.writeAt_splice valid distinct session.fs.disk garbage source numBytes value.2
  obtain ⟨shows', attached'⟩ := shows_.overwrite both attached written same
  generalize moved : min numBytes.toNat (found.file.hdr.fileLength.toNat - value.2) = count at wrote
  have done : session.perform (.write handle garbage source numBytes) = .ok (.wrote count,
      (session.withDisk after).setHandle handle
        (some ⟨found.name, ⟨found.file.hdr, value.2 + count⟩⟩)) := by
    rw [Session.perform, Session.find, opened, Runs.ok_bind, OpenFile.write, attached.position, wrote]
    rfl
  refine ⟨_, _, done, ⟨_, _, shows_.shows_handle both attached, ?_⟩, ?_⟩
  · rw [Blocks.cells_length, length_stored, moved]
    rfl
  · have both' : (store.overwriteAt handle value.2
        (Blocks.cells source 0 numBytes.toNat)).handles handle = some value := by
      rw [Files.Store.overwriteAt, both]
      exact both
    rw [Session.event, Files.Store.apply, both]
    dsimp only
    rw [Files.Store.advance, both']
    exact shows'.setHandle handle (.some ⟨attached.name, rfl, attached'.header⟩)

/-- Started again, Nachos has the same files, and none of them open. -/
theorem restart (shows_ : Shows session freeMap directory store) :
    Granted session store .restart := by
  obtain ⟨fs', done, disk, mounted⟩ := shows_.mounted.mount
  refine ⟨.done, ⟨fs', fun _ => none⟩, ?_, trivial, freeMap, directory, mounted, ?_, fun _ => .none⟩
  · rw [Session.perform, done]
    rfl
  · rw [disk]
    exact shows_.shelf

end Shows

/-- A request of a careful program is served as the store would serve it. -/
theorem Represents.served (represents : Represents session store) {request : Request}
    (careful : session.Careful request) : Granted session store request := by
  obtain ⟨freeMap, directory, shows_⟩ := represents
  cases request with
  | create garbage name initialSize => exact shows_.create garbage name careful
  | remove garbage name => exact shows_.remove garbage name careful
  | openAs handle garbage name => exact shows_.openAs handle garbage name
  | close handle =>
    exact ⟨.done, session.setHandle handle none, rfl, trivial, shows_.setHandle handle .none⟩
  | seek handle position => exact shows_.seek careful
  | read handle numBytes => exact shows_.read careful
  | write handle garbage source numBytes => exact shows_.write garbage source careful
  | readAt handle numBytes position => exact shows_.readAt careful
  | writeAt handle garbage source numBytes position =>
    exact shows_.writeAt garbage source careful
  | restart => exact shows_.restart

/-- At the start the store is empty. -/
theorem represents_started (started : session.Started) : Represents session .empty := by
  obtain ⟨⟨disk, garbage, formatted⟩, closed⟩ := started
  obtain ⟨fs, freeMap, directory, formatted', mounted, nothing⟩ := Mounted.format disk garbage
  rw [formatted, Except.ok.injEq] at formatted'
  refine ⟨freeMap, directory, formatted' ▸ mounted, ?_, fun handle => ?_⟩
  · rw [formatted', nothing]
    rfl
  · rw [closed]
    exact .none

/-- What a careful request does to the session, the store allows. -/
theorem Represents.stepped (represents : Represents session store) {request : Request}
    (careful : session.Careful request) {after : Session}
    (stepped : session.step request = .ok after) :
    Runs.Accepts Files.Store.apply (Files.Store.allows limits) store
        (session.observe request after) ∧
      Represents after ((session.observe request after).foldl Files.Store.apply store) := by
  obtain ⟨answer, after', performed, allowed, represents'⟩ := represents.served careful
  rw [Session.step, performed, Runs.ok_bind] at stepped
  cases stepped
  rw [Session.observe, performed]
  exact ⟨⟨allowed, trivial⟩, represents'⟩

/--
The file system is a store of named files of fixed length.

Whatever careful programs create, open, read, write and remove, and however often Nachos is started
again, each request is served, and its answer is that of the store: files keep their bytes until
these are written over, and space runs out exactly when the store says so.
-/
theorem serves_store {history : List (Files.Event (List Byte) Byte)}
    (traced : Runs.Traced Session.step Session.Started Session.Careful Session.observe session
      history) :
    Runs.Accepts Files.Store.apply (Files.Store.allows limits) .empty history ∧
      ∀ request, session.Careful request → ∃ after, session.step request = .ok after := by
  obtain ⟨accepted, represents⟩ := traced.refines Represents (fun _ => represents_started)
    fun _ _ _ _ represents careful stepped => represents.stepped careful stepped
  refine ⟨accepted, fun request careful => ?_⟩
  obtain ⟨answer, after, performed, -⟩ := represents.served careful
  exact ⟨after, by rw [Session.step, performed]; rfl⟩

/-- A file is created, opened, and found again after a restart. -/
def createAndRestart : List Request :=
  [.create leftovers [65] 200, .openAs 0 leftovers [65], .restart, .openAs 1 leftovers [65]]

/-- A file that was created is there after a restart, and a store of files would have it there. -/
theorem serves_store_createAndRestart : ∃ fs after, FileSystem.format (fun _ => 255) leftovers = .ok fs ∧
    Runs.run Session.step ⟨fs, fun _ => none⟩ createAndRestart = .ok after ∧
    Runs.Accepts Files.Store.apply (Files.Store.allows limits) .empty
      (Runs.record Session.step Session.observe ⟨fs, fun _ => none⟩ createAndRestart) := by
  have answers : (match FileSystem.format (fun _ => 255) leftovers with
    | .error _ => false
    | .ok fs => Runs.runsTo Session.step ⟨fs, fun _ => none⟩ createAndRestart fun after =>
        (after.handles 1).isSome) = true := by decide +kernel
  split at answers
  · cases answers
  · rename_i fs formatted
    obtain ⟨after, ran, -⟩ := Runs.exists_of_runsTo answers
    have guarded : Runs.Guarded Session.step Session.Careful ⟨fs, fun _ => none⟩ createAndRestart := by
      refine Runs.guarded_of_forall (fun session request member => ?_) _
      simp only [createAndRestart, List.mem_cons, List.not_mem_nil, or_false] at member
      rcases member with rfl | rfl | rfl | rfl
      · simp only [Session.Careful]
        decide
      all_goals trivial
    exact ⟨fs, after, formatted, ran,
      (serves_store (Runs.Traced.extend (.start ⟨⟨_, _, formatted⟩, rfl⟩) guarded ran)).1⟩

end Nachos.Filesys
