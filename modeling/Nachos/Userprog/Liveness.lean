import Nachos.Userprog.Steps

/-! Frames stay allocated while an address space uses them, and are shared within families only. -/

namespace Nachos.Userprog

/-- Every frame in use is marked, and only the code and data of a family are in use twice. -/
structure Live (kernel : Kernel) (families : Families) : Prop where
  marked : ∀ thread space, kernel.space thread = some space → ∀ entry ∈ space.pageTable,
    ∃ number : Nat, entry.physicalPage = number ∧ number < numPhysPages ∧
      kernel.physicalPageMap.testBit number = true
  shared : ∀ thread other space space' (page page' : Nat) entry entry',
    kernel.space thread = some space → kernel.space other = some space' → thread ≠ other →
    space.pageTable[page]? = some entry → space'.pageTable[page']? = some entry' →
    entry.physicalPage = entry'.physicalPage →
    families.family thread = families.family other ∧ page = page' ∧
      (page : Int) < space.stackPagesInit

/--
An address space that gives back code and data shares their frames with no other one.

The destructor gives them back when the counter of the space itself is one, as it is in every space
that was loaded from an executable.
-/
def SafeExit (kernel : Kernel) : Action → Prop
  | .exit => ∀ thread space, kernel.running = some (thread, space) → space.usage = 1 →
      ∀ other relative, other ≠ thread → kernel.space other = some relative →
      ∀ (page : Nat) entry, (page : Int) < space.stackPagesInit →
      space.pageTable[page]? = some entry →
      ∀ entry' ∈ relative.pageTable, entry'.physicalPage ≠ entry.physicalPage
  | _ => True

/-- Where the pages of all address spaces lie. -/
structure Placed (kernel : Kernel) (families : Families) : Prop where
  numBits : kernel.physicalPageMap.numBits = numPhysPages
  framed : ∀ thread layout (page : Nat) frame, kernel.layout thread = some layout →
    layout.frames[page]? = some frame → ∃ number : Nat, frame = number ∧ number < numPhysPages ∧
      kernel.physicalPageMap.testBit number = true
  apart : ∀ thread other layout layout' (page page' : Nat) frame,
    kernel.layout thread = some layout → kernel.layout other = some layout' →
    layout.frames[page]? = some frame → layout'.frames[page']? = some frame →
    page = page' ∧ (thread = other ∨
      families.family thread = families.family other ∧ (page : Int) < layout.stackPagesInit)
  kin : ∀ thread other layout layout', kernel.layout thread = some layout →
    kernel.layout other = some layout' → families.family thread = families.family other →
    layout'.frames.length = layout.frames.length ∧
      ∀ page : Nat, (page : Int) < layout.stackPagesInit → layout'.frames[page]? = layout.frames[page]?
  known : ∀ thread layout, kernel.layout thread = some layout →
    families.family thread < families.created ∧ families.numPages thread = layout.frames.length

variable {before after kernel : Kernel} {families families' : Families}

/-- An entry of a page table is a frame of the layout. -/
theorem AddrSpace.layout_frames {space : AddrSpace} {page : Nat} {frame : Int} :
    space.layout.frames[page]? = some frame ↔
      ∃ entry, space.pageTable[page]? = some entry ∧ entry.physicalPage = frame := by
  simp [AddrSpace.layout]

/-- The stack of a layout begins where that of the address space does. -/
theorem AddrSpace.layout_stackPagesInit (space : AddrSpace) :
    space.layout.stackPagesInit = space.stackPagesInit := by
  simp [Layout.stackPagesInit, AddrSpace.stackPagesInit, AddrSpace.layout]

/-- The layout of a thread is that of its address space. -/
theorem Kernel.layout_eq_some {thread : Thread} {layout : Layout} :
    kernel.layout thread = some layout ↔
      ∃ space, kernel.space thread = some space ∧ space.layout = layout := by
  simp [Kernel.layout]

/-- Well placed pages are live. -/
theorem Placed.live (placed : Placed kernel families) : Live kernel families := by
  refine ⟨?_, ?_⟩
  · intro thread space located entry member
    obtain ⟨page, found⟩ := List.getElem?_of_mem member
    exact placed.framed thread space.layout page _ (Kernel.layout_eq_some.mpr ⟨space, located, rfl⟩)
      (AddrSpace.layout_frames.mpr ⟨entry, found, rfl⟩)
  · intro thread other space space' page page' entry entry' located located' differ found found' same
    obtain ⟨pages, reason⟩ := placed.apart thread other space.layout space'.layout page page' _
      (Kernel.layout_eq_some.mpr ⟨space, located, rfl⟩)
      (Kernel.layout_eq_some.mpr ⟨space', located', rfl⟩)
      (AddrSpace.layout_frames.mpr ⟨entry, found, rfl⟩)
      (AddrSpace.layout_frames.mpr ⟨entry', found', same.symm⟩)
    obtain ⟨family, below⟩ := reason.resolve_left differ
    rw [AddrSpace.layout_stackPagesInit] at below
    exact ⟨family, pages, below⟩

/-- Nothing is placed at boot. -/
theorem Boot.placed (boot : Boot kernel) : Placed kernel families := by
  obtain ⟨garbage, covers, fresh⟩ := boot.freshMap
  have none : ∀ thread, kernel.layout thread = none := by
    intro thread
    simp [Kernel.layout, boot.noSpaces]
  exact ⟨by simp [fresh], by simp [none], by simp [none], by simp [none], by simp [none]⟩

/-- Steps that move no page and create no thread keep everything in its place. -/
theorem Placed.unmoved (placed : Placed before families) (layouts : after.layout = before.layout)
    (map : after.physicalPageMap = before.physicalPageMap)
    (family : families'.family = families.family) (created : families'.created = families.created)
    (numPages : families'.numPages = families.numPages) : Placed after families' := by
  refine ⟨?_, ?_, ?_, ?_, ?_⟩
  · rw [map]
    exact placed.numBits
  · rw [layouts, map]
    exact placed.framed
  · rw [layouts, family]
    exact placed.apart
  · rw [layouts, family]
    exact placed.kin
  · rw [layouts, family, created, numPages]
    exact placed.known

section Creation

variable {thread : Thread} {layout : Layout} {own : Nat → Bool} {old : List Int}

/-- A page with a frame of its own shares it with no page that was there before. -/
theorem Placed.unshared (placed : Placed before families)
    (created : Created before after thread layout own old) {other : Thread} {layout' : Layout}
    {page page' : Nat} {frame : Int} (mine : own page = true)
    (found : layout.frames[page]? = some frame) (located : before.layout other = some layout')
    (found' : layout'.frames[page']? = some frame) : False := by
  obtain ⟨number, rfl, -, free⟩ := created.filled.taken page frame found mine
  obtain ⟨number', same, -, marked⟩ := placed.framed other layout' page' _ located found'
  have equal : number = number' := by omega
  simp [equal, marked] at free

/-- Frames in use stay marked when an address space is created, and its own frames get marked. -/
theorem Placed.framed_created (placed : Placed before families)
    (created : Created before after thread layout own old)
    (kept : ∀ (page : Nat) frame, own page = false → layout.frames[page]? = some frame →
      ∃ other layout', before.layout other = some layout' ∧ layout'.frames[page]? = some frame)
    (other : Thread) (layout' : Layout) (page : Nat) (frame : Int)
    (located : after.layout other = some layout') (found : layout'.frames[page]? = some frame) :
    ∃ number : Nat, frame = number ∧ number < numPhysPages ∧
      after.physicalPageMap.testBit number = true := by
  have before_after : ∀ other layout' (page : Nat) frame, before.layout other = some layout' →
      layout'.frames[page]? = some frame → ∃ number : Nat, frame = number ∧
        number < numPhysPages ∧ after.physicalPageMap.testBit number = true := by
    intro other layout' page frame located found
    obtain ⟨number, same, inside, marked⟩ := placed.framed other layout' page frame located found
    exact ⟨number, same, inside, (created.filled.bits number inside).mpr (.inl marked)⟩
  rw [created.layouts] at located
  split at located
  · simp only [Option.some.injEq] at located
    subst located
    cases mine : own page with
    | true =>
      obtain ⟨number, rfl, inside, -⟩ := created.filled.taken page frame found mine
      exact ⟨number, rfl, inside, (created.filled.bits number inside).mpr (.inr ⟨page, found, mine⟩)⟩
    | false =>
      obtain ⟨origin, layout', located, found⟩ := kept page frame mine found
      exact before_after origin layout' page frame located found
  · exact before_after other layout' page frame located found

/-- Loading an executable keeps everything in its place. -/
theorem Placed.exec {numPages : Nat} (placed : Placed before families)
    (created : Created before after thread layout (fun _ => true) old)
    (pages : layout.frames.length = numPages) :
    Placed after (families.apply (.executed thread numPages)) := by
  -- The new thread starts a family that no thread before it belongs to.
  have alone : ∀ other layout', before.layout other = some layout' →
      families.family other ≠ families.created :=
    fun other layout' located => Nat.ne_of_lt (placed.known other layout' located).1
  refine ⟨created.filled.numBits, placed.framed_created created (by simp), ?_, ?_, ?_⟩
  · intro first second layout₁ layout₂ page page' frame located₁ located₂ found₁ found₂
    rw [created.layouts] at located₁ located₂
    simp only [Families.apply, Families.assign_apply]
    split at located₁ <;> split at located₂
    · rename_i same same'
      cases located₁
      cases located₂
      exact ⟨created.filled.apart page page' frame found₁ found₂ rfl rfl,
        .inl (same.trans same'.symm)⟩
    · cases located₁
      exact (placed.unshared created rfl found₁ located₂ found₂).elim
    · cases located₂
      exact (placed.unshared created rfl found₂ located₁ found₁).elim
    · rename_i differ differ'
      rw [if_neg differ, if_neg differ']
      exact placed.apart first second layout₁ layout₂ page page' frame located₁ located₂ found₁ found₂
  · intro first second layout₁ layout₂ located₁ located₂ family
    rw [created.layouts] at located₁ located₂
    simp only [Families.apply, Families.assign_apply] at family
    split at located₁ <;> split at located₂
    · cases located₁
      cases located₂
      exact ⟨rfl, fun _ _ => rfl⟩
    · rename_i same differ
      rw [if_pos same, if_neg differ] at family
      exact absurd family.symm (alone second layout₂ located₂)
    · rename_i differ same
      rw [if_neg differ, if_pos same] at family
      exact absurd family (alone first layout₁ located₁)
    · rename_i differ differ'
      rw [if_neg differ, if_neg differ'] at family
      exact placed.kin first second layout₁ layout₂ located₁ located₂ family
  · intro other layout' located
    rw [created.layouts] at located
    simp only [Families.apply, Families.assign_apply]
    split at located
    · rename_i same
      cases located
      simp [same, pages]
    · rename_i differ
      have earlier := placed.known other layout' located
      simp only [if_neg differ]
      exact ⟨by omega, earlier.2⟩

/-- Two pages of a copy, or a page of the copy and an older one, share a frame as they should. -/
theorem Placed.apart_fork {parent other : Thread} {father layout' : Layout} {page page' : Nat}
    {frame : Int} (placed : Placed before families) (located : before.layout parent = some father)
    (created : Created before after thread layout (fun page => father.stackPagesInit ≤ page)
      father.frames)
    (found : layout.frames[page]? = some frame) (located' : before.layout other = some layout')
    (found' : layout'.frames[page']? = some frame) :
    page = page' ∧ families.family parent = families.family other ∧
      (page : Int) < father.stackPagesInit ∧ (page' : Int) < layout'.stackPagesInit := by
  have shared : (page : Int) < father.stackPagesInit := by
    apply Int.lt_of_not_ge
    intro stack
    exact placed.unshared created (by simpa using stack) found located' found'
  have copied : father.frames[page]? = some frame := by
    rw [← created.filled.kept page (by simpa using shared)]
    exact found
  obtain ⟨rfl, reason⟩ := placed.apart parent other father layout' page page' frame located
    located' copied found'
  rcases reason with rfl | ⟨family, -⟩
  · rw [located, Option.some.injEq] at located'
    subst located'
    exact ⟨rfl, rfl, shared, shared⟩
  · have lengths := (placed.kin parent other father layout' located located' family).1
    refine ⟨rfl, family, shared, ?_⟩
    rw [Layout.stackPagesInit, lengths]
    exact shared

/-- `Fork` keeps everything in its place. -/
theorem Placed.fork {parent : Thread} {father : Layout} (placed : Placed before families)
    (located : before.layout parent = some father)
    (created : Created before after thread layout (fun page => father.stackPagesInit ≤ page)
      father.frames) :
    Placed after (families.apply (.forked parent thread)) := by
  have length : layout.frames.length = father.frames.length := created.filled.length
  have stack : layout.stackPagesInit = father.stackPagesInit := by
    rw [Layout.stackPagesInit, Layout.stackPagesInit, length]
  have copied : ∀ page : Nat, (page : Int) < father.stackPagesInit →
      layout.frames[page]? = father.frames[page]? :=
    fun page low => created.filled.kept page (by simpa using low)
  refine ⟨created.filled.numBits, placed.framed_created created ?_, ?_, ?_, ?_⟩
  · intro page frame keeps found
    rw [created.filled.kept page keeps] at found
    exact ⟨parent, father, located, found⟩
  · intro first second layout₁ layout₂ page page' frame located₁ located₂ found₁ found₂
    rw [created.layouts] at located₁ located₂
    simp only [Families.apply, Families.assign_apply]
    split at located₁ <;> split at located₂
    · rename_i same same'
      cases located₁
      cases located₂
      refine ⟨?_, .inl (same.trans same'.symm)⟩
      by_cases low : (page : Int) < father.stackPagesInit
      · rw [copied page low] at found₁
        exact (placed.apart_fork located created found₂ located found₁).1.symm
      · by_cases low' : (page' : Int) < father.stackPagesInit
        · rw [copied page' low'] at found₂
          exact (placed.apart_fork located created found₁ located found₂).1
        · exact created.filled.apart page page' frame found₁ found₂ (by simpa using low)
            (by simpa using low')
    · rename_i same differ
      cases located₁
      obtain ⟨pages, family, low, -⟩ := placed.apart_fork located created found₁ located₂ found₂
      rw [if_pos same, if_neg differ, stack]
      exact ⟨pages, .inr ⟨family, low⟩⟩
    · rename_i differ same
      cases located₂
      obtain ⟨pages, family, -, low⟩ := placed.apart_fork located created found₂ located₁ found₁
      rw [if_neg differ, if_pos same]
      exact ⟨pages.symm, .inr ⟨family.symm, low⟩⟩
    · rename_i differ differ'
      rw [if_neg differ, if_neg differ']
      exact placed.apart first second layout₁ layout₂ page page' frame located₁ located₂ found₁ found₂
  · intro first second layout₁ layout₂ located₁ located₂ family
    rw [created.layouts] at located₁ located₂
    simp only [Families.apply, Families.assign_apply] at family
    split at located₁ <;> split at located₂
    · cases located₁
      cases located₂
      exact ⟨rfl, fun _ _ => rfl⟩
    · rename_i same differ
      cases located₁
      rw [if_pos same, if_neg differ] at family
      obtain ⟨lengths, frames⟩ := placed.kin parent second father layout₂ located located₂ family
      refine ⟨lengths.trans length.symm, ?_⟩
      intro page low
      rw [stack] at low
      rw [frames page low, copied page low]
    · rename_i differ same
      cases located₂
      rw [if_neg differ, if_pos same] at family
      obtain ⟨lengths, frames⟩ := placed.kin first parent layout₁ father located₁ located family
      refine ⟨length.trans lengths, ?_⟩
      intro page low
      have low' : (page : Int) < father.stackPagesInit := by
        rw [Layout.stackPagesInit, lengths]
        exact low
      rw [copied page low', frames page low]
    · rename_i differ differ'
      rw [if_neg differ, if_neg differ'] at family
      exact placed.kin first second layout₁ layout₂ located₁ located₂ family
  · intro other layout' located'
    rw [created.layouts] at located'
    simp only [Families.apply, Families.assign_apply]
    have ancestor := placed.known parent father located
    split at located'
    · rename_i same
      cases located'
      simp only [if_pos same]
      exact ⟨by omega, by rw [ancestor.2, length]⟩
    · rename_i differ
      have earlier := placed.known other layout' located'
      simp only [if_neg differ]
      exact ⟨by omega, earlier.2⟩

end Creation

section Destruction

variable {thread : Thread} {space : AddrSpace}

/-- A frame that is given back while another address space uses it makes the exit unsafe. -/
theorem Placed.not_released (placed : Placed before families)
    (running : before.running = some (thread, space)) (safe : SafeExit before .exit)
    {other : Thread} {layout' : Layout} {page' number : Nat} (differ : other ≠ thread)
    (located' : before.layout other = some layout')
    (found' : layout'.frames[page']? = some (number : Int)) : ¬ space.layout.Releases number := by
  rintro ⟨page, found, reason⟩
  have located : before.layout thread = some space.layout :=
    Kernel.layout_eq_some.mpr ⟨space, (Kernel.running_eq_some.mp running).2, rfl⟩
  obtain ⟨rfl, shared⟩ := placed.apart thread other space.layout layout' page page' _ located
    located' found found'
  obtain ⟨-, low⟩ := shared.resolve_left (Ne.symm differ)
  -- The page lies below the stack, so the counter made the destructor give it back.
  have last := reason.resolve_right (by omega)
  obtain ⟨relative, home, rfl⟩ := Kernel.layout_eq_some.mp located'
  obtain ⟨entry, place, named⟩ := AddrSpace.layout_frames.mp found
  obtain ⟨entry', place', named'⟩ := AddrSpace.layout_frames.mp found'
  rw [AddrSpace.layout_stackPagesInit] at low
  exact safe thread space running last other relative differ home page entry low place entry'
    (List.mem_of_getElem? place') (named'.trans named.symm)

/-- A safe exit keeps everything else in its place. -/
theorem Placed.exit (placed : Placed before families)
    (running : before.running = some (thread, space)) (safe : SafeExit before .exit)
    (layouts : ∀ other, after.layout other = if other = thread then none else before.layout other)
    (freed : Freed before after space.layout.Releases) : Placed after families := by
  have earlier : ∀ other layout', after.layout other = some layout' →
      other ≠ thread ∧ before.layout other = some layout' := by
    intro other layout' located
    rw [layouts] at located
    split at located
    · simp at located
    · rename_i differ
      exact ⟨differ, located⟩
  refine ⟨freed.numBits, ?_, ?_, ?_, ?_⟩
  · intro other layout' page frame located found
    obtain ⟨differ, located⟩ := earlier other layout' located
    obtain ⟨number, rfl, inside, marked⟩ := placed.framed other layout' page frame located found
    refine ⟨number, rfl, inside, (freed.bits number inside).mpr ⟨marked, ?_⟩⟩
    exact placed.not_released running safe differ located found
  · intro first second layout₁ layout₂ page page' frame located₁ located₂
    exact placed.apart first second layout₁ layout₂ page page' frame
      (earlier first layout₁ located₁).2 (earlier second layout₂ located₂).2
  · intro first second layout₁ layout₂ located₁ located₂
    exact placed.kin first second layout₁ layout₂ (earlier first layout₁ located₁).2
      (earlier second layout₂ located₂).2
  · intro other layout' located
    exact placed.known other layout' (earlier other layout' located).2

/-- After an unsafe exit a frame in use is no longer marked. -/
theorem Freed.not_live (running : before.running = some (thread, space))
    (layouts : ∀ other, after.layout other = if other = thread then none else before.layout other)
    (freed : Freed before after space.layout.Releases) (live : Live after families) :
    SafeExit before .exit := by
  intro thread' space' running' last other relative differ located' page entry low found entry'
    member same
  obtain ⟨rfl, rfl⟩ : thread = thread' ∧ space = space' := by
    rw [running, Option.some.injEq, Prod.mk.injEq] at running'
    exact running'
  have kept : after.layout other = some relative.layout := by
    rw [layouts, if_neg differ]
    exact Kernel.layout_eq_some.mpr ⟨relative, located', rfl⟩
  -- The page table of the other thread may differ in its reference bits only.
  obtain ⟨relative', located', layout'⟩ := Kernel.layout_eq_some.mp kept
  obtain ⟨place, found'⟩ := List.getElem?_of_mem member
  have frame := AddrSpace.layout_frames.mpr ⟨entry', found', rfl⟩
  rw [← layout'] at frame
  obtain ⟨entry'', found'', named⟩ := AddrSpace.layout_frames.mp frame
  obtain ⟨number, framed, inside, marked⟩ := live.marked other relative' located' entry''
    (List.mem_of_getElem? found'')
  refine ((freed.bits number inside).mp marked).2 ⟨page, ?_, .inl last⟩
  exact AddrSpace.layout_frames.mpr ⟨entry, found, by rw [← same, ← named, framed]⟩

end Destruction

/-- A step keeps everything in its place exactly when it is no unsafe exit. -/
theorem Placed.stepped {action : Action} (placed : Placed before families)
    (stepped : Stepped before action after) (safe : SafeExit before action) :
    Placed after ((observe before action after).foldl Families.apply families) := by
  cases stepped with
  | exec created pages => exact placed.exec created pages
  | fork running located created =>
    simp only [observe, running, List.foldl_cons, List.foldl_nil]
    exact placed.fork located created
  | exit running layouts freed => exact placed.exit running safe layouts freed
  | switchTo layouts _ map => exact placed.unmoved layouts map rfl rfl rfl
  | load hit decoded layouts memory map shows =>
    rw [shows]
    exact placed.unmoved layouts map rfl rfl rfl
  | store hit encoded layouts memory map =>
    simp only [observe, hit.running, encoded, List.foldl_cons, List.foldl_nil]
    exact placed.unmoved layouts map rfl rfl rfl

/-- Every page is well placed in runs without unsafe exits. -/
theorem placed_of_traced {history : List Access}
    (traced : Runs.Traced step Boot SafeExit observe kernel history) :
    Placed kernel (Families.after history) := by
  refine traced.invariant (fun kernel history => Placed kernel (Families.after history)) ?_ ?_
  · intro kernel boot
    exact boot.placed
  · intro before action after history placed safe done
    rw [Families.after_append]
    exact placed.stepped (step_spec placed.numBits done) safe

/--
Frames are live as long as no address space gives back code and data that others share.

The first exit that does so breaks this.
-/
theorem live_iff_safeExit {history : List Access}
    (traced : Runs.Traced step Boot SafeExit observe kernel history) :
    Live kernel (Families.after history) ∧ ∀ action after, step kernel action = .ok after →
      (Live after (Families.after (history ++ observe kernel action after)) ↔
        SafeExit kernel action) := by
  have placed := placed_of_traced traced
  refine ⟨placed.live, ?_⟩
  intro action after done
  have stepped := step_spec placed.numBits done
  rw [Families.after_append]
  constructor
  · intro live
    cases stepped with
    | exit running layouts freed => exact freed.not_live running layouts live
    | exec | fork | switchTo | load | store => trivial
  · intro safe
    exact (placed.stepped stepped safe).live

/-- A header and one page of code fit in a file. -/
theorem fits_onePage : (List.replicate 168 5#8).length < 2 ^ 31 := by
  rw [List.length_replicate]
  omega

/-- A program with one page of code, filled with one value, and 8 pages of stack. -/
def shortProgram : Executable where
  header := ⟨true, ⟨0#32, 40#32, 128#32⟩, ⟨0#32, 0#32, 0#32⟩, ⟨0#32, 0#32, 0#32⟩⟩
  contents := List.replicate 168 5#8
  fits := fits_onePage

/-- The kernel before any program runs. -/
def firstKernel : Kernel where
  mainMemory := fun _ => 0
  physicalPageMap := BitMap.new numPhysPages [0#32] BitMap.fits_oneWord
  space := fun _ => none
  currentThread := none

/-- That kernel is one that `Initialize` may leave. -/
theorem firstKernel_boot : Boot firstKernel where
  zeroMemory := rfl
  freshMap := ⟨[0#32], by decide, rfl⟩
  noSpaces := rfl
  idle := rfl

/-- Thread 1 runs the program and calls `Fork`. -/
def execAndFork : List Action := [.exec 1 shortProgram, .fork 2]

/-- Actions other than exits are always safe. -/
theorem safeExit_of_ne {action : Action} (other : action ≠ .exit) (kernel : Kernel) :
    SafeExit kernel action := by
  cases action with
  | exit => exact absurd rfl other
  | exec | fork | switchTo | load | store => trivial

/-- Parent and child both run on marked frames. -/
theorem live_execAndFork :
    ∃ kernel, Runs.run step firstKernel execAndFork = .ok kernel ∧
      Live kernel (Families.after (Runs.record step observe firstKernel execAndFork)) := by
  obtain ⟨kernel, ran, -⟩ := Runs.exists_of_runsTo
    (show Runs.runsTo step firstKernel execAndFork (fun _ => true) = true by decide +kernel)
  have guarded : Runs.Guarded step SafeExit firstKernel execAndFork :=
    Runs.guarded_of_forall (fun kernel action member => safeExit_of_ne (by
      rintro rfl
      simp [execAndFork] at member) kernel) firstKernel
  exact ⟨kernel, ran, (live_iff_safeExit (Runs.Traced.extend (.start firstKernel_boot) guarded
    ran)).1⟩

/-- When the parent exits first, the child is left with frames that are no longer marked. -/
theorem not_live_after_parent_exit :
    Boot firstKernel ∧ ∃ kernel, Runs.run step firstKernel (execAndFork ++ [.exit]) = .ok kernel ∧
      ¬ Live kernel (Families.after
        (Runs.record step observe firstKernel (execAndFork ++ [.exit]))) := by
  refine ⟨firstKernel_boot, ?_⟩
  obtain ⟨kernel, ran, seen⟩ := Runs.exists_of_runsTo
    (show Runs.runsTo step firstKernel (execAndFork ++ [.exit]) (fun kernel =>
      (kernel.space 2).any fun space => space.pageTable.any fun entry =>
        entry.physicalPage == 0 && !kernel.physicalPageMap.testBit 0) = true by decide +kernel)
  refine ⟨kernel, ran, ?_⟩
  intro live
  obtain ⟨space, located, freed⟩ := (Option.any_eq_true _ _).mp seen
  obtain ⟨entry, member, unmarked⟩ := List.any_eq_true.mp freed
  obtain ⟨number, named, -, marked⟩ := live.marked 2 space located entry member
  simp only [Bool.and_eq_true, beq_iff_eq, Bool.not_eq_true'] at unmarked
  have first : number = 0 := by omega
  rw [first, unmarked.2] at marked
  simp at marked

end Nachos.Userprog
