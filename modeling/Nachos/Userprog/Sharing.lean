import Nachos.Userprog.Liveness

/-! The linear build keeps the promise of `Fork`. -/

namespace Nachos.Userprog

namespace Families

variable {families : Families}

/-- Does a store of this thread to a page reach the page that the other thread sees there? -/
def reaches (families : Families) (thread other : Thread) (page : Nat) : Bool :=
  if families.global other page then families.family other == families.family thread
  else other == thread

/-- A store changes what its family sees below the stack, and what its own thread sees above. -/
theorem cell_stored (families : Families) (thread other : Thread) (addr : BitVec 32)
    (bytes : List Byte) (address : Nat) :
    (families.apply (.stored thread addr bytes)).cell other address =
      if families.reaches thread other (address / pageSize) then
        Blocks.setCells (families.cell other) addr.toNat (bytes.map some) address
      else families.cell other address := by
  have same : (families.apply (.stored thread addr bytes)).global other (address / pageSize) =
      families.global other (address / pageSize) := rfl
  simp only [cell, reaches, same, Blocks.setCells]
  by_cases low : families.global other (address / pageSize) = true
  · by_cases kin : families.family other = families.family thread
    · simp [low, apply, assign_apply, Blocks.setCells, kin]
    · simp [low, apply, assign_apply, kin]
  · by_cases own : other = thread
    · subst own
      simp [low, apply, assign_apply, Blocks.setCells]
    · simp [low, apply, assign_apply, own]

/-- A store patches one page of those it reaches. -/
theorem block_cell_stored (families : Families) (thread other : Thread) {addr : BitVec 32}
    {bytes : List Byte} (fits : pageOffset addr + bytes.length ≤ pageSize) (page : Nat) :
    Blocks.block pageSize ((families.apply (.stored thread addr bytes)).cell other) page =
      if page = virtualPageNumber addr ∧ families.reaches thread other page = true then
        Blocks.patch (Blocks.block pageSize (families.cell other) page) (pageOffset addr)
          (bytes.map some)
      else Blocks.block pageSize (families.cell other) page := by
  have inside : ∀ offset : Fin pageSize, (page * pageSize + offset) / pageSize = page :=
    Blocks.address_div page
  by_cases reached : families.reaches thread other page = true
  · have cells : Blocks.block pageSize ((families.apply (.stored thread addr bytes)).cell other)
        page = Blocks.block pageSize
          (Blocks.setCells (families.cell other) addr.toNat (bytes.map some)) page := by
      funext offset
      simp only [Blocks.block, cell_stored, inside, reached, if_true]
    rw [cells, toNat_eq_page_offset, Blocks.block_setCells _ (by simpa using fits)]
    by_cases here : page = virtualPageNumber addr
    · rw [if_pos here, if_pos ⟨here, reached⟩, here]
    · rw [if_neg here, if_neg fun both => here both.1]
  · rw [if_neg fun both => reached both.2]
    funext offset
    simp only [Blocks.block, cell_stored, inside, reached, Bool.false_eq_true, if_false]

/-- The threads of earlier families see nothing of a new one. -/
theorem cell_executed {thread other : Thread} {numPages : Nat} (differ : other ≠ thread)
    (earlier : families.family other < families.created) :
    (families.apply (.executed thread numPages)).cell other = families.cell other := by
  funext address
  have family : families.family other ≠ families.created := Nat.ne_of_lt earlier
  simp [cell, global, apply, assign_apply, differ, family]

/-- A new program knows of no store. -/
theorem cell_executed_self (families : Families) (thread : Thread) (numPages : Nat) :
    (families.apply (.executed thread numPages)).cell thread = fun _ => none := by
  funext address
  simp [cell, apply, assign_apply]

/-- `Fork` changes nothing for the other threads. -/
theorem cell_forked {father child other : Thread} (differ : other ≠ child) :
    (families.apply (.forked father child)).cell other = families.cell other := by
  funext address
  simp [cell, global, apply, assign_apply, differ]

/-- A child sees what its father sees below the stack, and knows nothing of the stack. -/
theorem cell_forked_self (families : Families) (father child : Thread) (address : Nat) :
    (families.apply (.forked father child)).cell child address =
      if families.global father (address / pageSize) then families.cell father address
      else none := by
  have copied : (families.apply (.forked father child)).global child (address / pageSize) =
      families.global father (address / pageSize) := by
    simp [global, apply, assign_apply]
  by_cases low : families.global father (address / pageSize) = true
  · rw [if_pos low, cell, if_pos (copied.trans low), cell, if_pos low]
    simp [apply, assign_apply]
  · rw [if_neg low, cell, if_neg (by rwa [copied])]
    simp [apply, assign_apply]

end Families

/-- The promise and the layout agree on where the stack begins. -/
theorem Placed.global_iff {kernel : Kernel} {families : Families} {thread : Thread}
    {layout : Layout} {page : Nat} (placed : Placed kernel families)
    (located : kernel.layout thread = some layout) :
    families.global thread page = true ↔ (page : Int) < layout.stackPagesInit := by
  rw [Families.global, (placed.known thread layout located).2, decide_eq_true_eq,
    Layout.stackPagesInit]

/-- The frames hold the bytes that programs stored last. -/
def Holds (kernel : Kernel) (families : Families) : Prop :=
  ∀ thread layout (page number : Nat), kernel.layout thread = some layout →
    layout.frames[page]? = some (number : Int) →
    Blocks.Matches (Blocks.block pageSize (families.cell thread) page) (kernel.frame number)

variable {before after kernel : Kernel} {families : Families}

/-- What is known stays true when neither the knowledge nor the frame changes. -/
theorem Holds.kept (holds : Holds before families) {families' : Families} {thread : Thread}
    {layout : Layout} {page number : Nat} (located : before.layout thread = some layout)
    (found : layout.frames[page]? = some (number : Int))
    (cells : families'.cell thread = families.cell thread)
    (frames : after.frame number = before.frame number) :
    Blocks.Matches (Blocks.block pageSize (families'.cell thread) page) (after.frame number) := by
  rw [cells, frames]
  exact holds thread layout page number located found

/-- Frames in use survive the creation of an address space. -/
theorem Placed.frame_created {thread other : Thread} {layout layout' : Layout} {own : Nat → Bool}
    {old : List Int} {page number : Nat} (placed : Placed before families)
    (created : Created before after thread layout own old)
    (located : before.layout other = some layout')
    (found : layout'.frames[page]? = some (number : Int)) :
    after.frame number = before.frame number := by
  obtain ⟨number', same, inside, marked⟩ := placed.framed other layout' page _ located found
  obtain rfl : number = number' := by omega
  exact created.filled.frames number inside marked

/-- Nothing is known about a new program. -/
theorem Holds.exec {thread : Thread} {layout : Layout} {old : List Int} {numPages : Nat}
    (holds : Holds before families) (placed : Placed before families)
    (created : Created before after thread layout (fun _ => true) old) :
    Holds after (families.apply (.executed thread numPages)) := by
  intro other layout' page number located found
  rw [created.layouts] at located
  split at located
  · rename_i same
    rw [same, Families.cell_executed_self]
    intro offset value unknown
    simp [Blocks.block] at unknown
  · rename_i differ
    exact holds.kept located found
      (Families.cell_executed differ (placed.known other layout' located).1)
      (placed.frame_created created located found)

/-- A child finds the code and data of its father. -/
theorem Holds.fork {parent thread : Thread} {father layout : Layout}
    (holds : Holds before families) (placed : Placed before families)
    (located : before.layout parent = some father)
    (created : Created before after thread layout (fun page => father.stackPagesInit ≤ page)
      father.frames) :
    Holds after (families.apply (.forked parent thread)) := by
  intro other layout' page number located' found
  rw [created.layouts] at located'
  split at located'
  · rename_i same
    cases located'
    rw [same]
    intro offset value known
    simp only [Blocks.block, Families.cell_forked_self] at known
    split at known
    · -- Below the stack the frame is that of the father.
      rename_i low
      rw [Blocks.address_div, placed.global_iff located] at low
      rw [created.filled.kept page (by simpa using low)] at found
      rw [placed.frame_created created located found]
      exact holds parent father page number located found offset value known
    · simp at known
  · rename_i differ
    exact holds.kept located' found (Families.cell_forked differ)
      (placed.frame_created created located' found)

/-- A store reaches exactly the pages that lie in the frame it writes. -/
theorem Placed.reaches_iff {thread other : Thread} {layout layout' : Layout} {addr : BitVec 32}
    {size number page number' : Nat} (placed : Placed before families)
    (hit : Hit before thread layout addr size number) (located : before.layout other = some layout')
    (found : layout'.frames[page]? = some (number' : Int)) :
    (page = virtualPageNumber addr ∧ families.reaches thread other page = true) ↔
      number' = number := by
  have low : families.global other page = true ↔ (page : Int) < layout'.stackPagesInit :=
    placed.global_iff located
  constructor
  · rintro ⟨rfl, reached⟩
    -- Below the stack the family shares the frame, above it the thread is the same.
    have frames : layout'.frames[virtualPageNumber addr]? = layout.frames[virtualPageNumber addr]? := by
      simp only [Families.reaches] at reached
      split at reached
      · rename_i below
        refine (placed.kin other thread layout' layout located hit.located ?_).2 _ (low.mp below)
          |>.symm
        simpa using reached
      · obtain rfl : other = thread := by simpa using reached
        rw [Option.some.inj (located.symm.trans hit.located)]
    rw [found, hit.framed, Option.some.injEq] at frames
    omega
  · rintro rfl
    obtain ⟨rfl, reason⟩ := placed.apart other thread layout' layout page _ _ located hit.located
      found hit.framed
    refine ⟨rfl, ?_⟩
    simp only [Families.reaches]
    rcases reason with rfl | ⟨family, below⟩
    · simp
    · simp [low.mpr below, family]

/-- A store becomes known to exactly those whose pages lie in the frame it writes. -/
theorem Holds.stored {thread : Thread} {layout : Layout} {addr value : BitVec 32}
    {size number : Nat} {bytes : List Byte} (holds : Holds before families)
    (placed : Placed before families) (hit : Hit before thread layout addr size number)
    (encoded : encodeBytes size value = some bytes) (layouts : after.layout = before.layout)
    (memory : after.mainMemory =
      Blocks.setCells before.mainMemory (number * pageSize + pageOffset addr) bytes) :
    Holds after (families.apply (.stored thread addr bytes)) := by
  obtain ⟨length, sized⟩ := encodeBytes_some encoded
  have fits : pageOffset addr + bytes.length ≤ pageSize := by
    rw [length]
    exact pageOffset_add_le hit.aligned sized
  have frames : ∀ other, after.frame other =
      if other = number then Blocks.patch (before.frame number) (pageOffset addr) bytes
      else before.frame other := by
    intro other
    rw [Kernel.frame, memory, Blocks.block_setCells _ fits]
    rfl
  intro other layout' page number' located found
  rw [layouts] at located
  have old := holds other layout' page number' located found
  have reached := placed.reaches_iff hit located found
  rw [Families.block_cell_stored families thread other fits, frames]
  by_cases same : number' = number
  · rw [if_pos (reached.mpr same), if_pos same, ← same]
    exact old.patch _ _
  · rw [if_neg fun both => same (reached.mp both), if_neg same]
    exact old

/-- A load reads what is known about the frame it reads. -/
theorem Holds.loaded {thread : Thread} {layout : Layout} {addr value : BitVec 32}
    {size number : Nat} (holds : Holds kernel families)
    (hit : Hit kernel thread layout addr size number)
    (decoded : decodeBytes (Blocks.cells kernel.mainMemory
      (number * pageSize + pageOffset addr) size) = some value) :
    families.Keeps (.loaded thread addr size value) := by
  have sized : size = 1 ∨ size = 2 ∨ size = 4 := by simpa using decodeBytes_some decoded
  have fits := pageOffset_add_le hit.aligned sized
  refine ⟨_, decoded, by simp, ?_⟩
  intro offset byte small known
  have inside : pageOffset addr + offset < pageSize := by omega
  have held := holds thread layout _ number hit.located hit.framed ⟨_, inside⟩ byte
  simp only [Blocks.block, ← Nat.add_assoc, ← toNat_eq_page_offset, Kernel.frame] at held
  rw [Blocks.cells, List.getElem?_map, List.getElem?_range small, Option.map_some, held known]

/-- What a step shows keeps the promise, and the frames follow the step. -/
theorem Holds.stepped {action : Action} (holds : Holds before families)
    (placed : Placed before families) (stepped : Stepped before action after)
    (safe : SafeExit before action) :
    Runs.Accepts Families.apply Families.Keeps families (observe before action after) ∧
      Holds after ((observe before action after).foldl Families.apply families) := by
  cases stepped with
  | exec created pages => exact ⟨⟨trivial, trivial⟩, holds.exec placed created⟩
  | fork running located created =>
    simp only [observe, running, List.foldl_cons, List.foldl_nil]
    exact ⟨⟨trivial, trivial⟩, holds.fork placed located created⟩
  | @exit thread space _ running layouts freed =>
    refine ⟨trivial, ?_⟩
    intro other layout page number located found
    rw [layouts] at located
    split at located
    · simp at located
    · rename_i differ
      have kept := placed.not_released running safe differ located found
      exact holds.kept located found rfl (freed.frames number kept)
  | switchTo layouts memory map =>
    refine ⟨trivial, ?_⟩
    intro thread layout page number located found
    rw [layouts] at located
    exact holds.kept located found rfl (by rw [Kernel.frame, memory]; rfl)
  | load hit decoded layouts memory map shows =>
    rw [shows]
    refine ⟨⟨holds.loaded hit decoded, trivial⟩, ?_⟩
    intro thread layout page number located found
    rw [layouts] at located
    exact holds.kept located found rfl (by rw [Kernel.frame, memory]; rfl)
  | store hit encoded layouts memory map =>
    simp only [observe, hit.running, encoded, List.foldl_cons, List.foldl_nil]
    exact ⟨⟨trivial, trivial⟩, holds.stored placed hit encoded layouts memory⟩

/-- In runs without unsafe exits, the linear build keeps the promise of `Fork`. -/
theorem forkShares_of_traced {history : List Access}
    (traced : Runs.Traced step Boot SafeExit observe kernel history) : ForkShares history := by
  have all : Placed kernel (Families.after history) ∧ Holds kernel (Families.after history) ∧
      ForkShares history := by
    refine traced.invariant (fun kernel history => Placed kernel (Families.after history) ∧
      Holds kernel (Families.after history) ∧ ForkShares history) ?_ ?_
    · intro kernel boot
      refine ⟨boot.placed, ?_, trivial⟩
      intro thread layout page number located
      simp [Kernel.layout, boot.noSpaces] at located
    · rintro before action after history ⟨placed, holds, shares⟩ safe done
      have stepped := step_spec placed.numBits done
      obtain ⟨keeps, holds'⟩ := holds.stepped placed stepped safe
      rw [Families.after_append]
      exact ⟨placed.stepped stepped safe, holds', Runs.accepts_append.mpr ⟨shares, keeps⟩⟩
  exact all.2.2

end Nachos.Userprog
