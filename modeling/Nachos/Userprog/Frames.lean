import Mathlib.Data.List.Nodup
import Nachos.Userprog.Liveness

/-! Who owns the frames of the linear build: none is leaked, and none is given back twice. -/

namespace Nachos.Userprog

/-- What happened to the frames of address spaces. -/
inductive Deed where
  /-- A constructor took these frames; the one for executables is `loaded`. -/
  | created (thread : Thread) (loaded : Bool) (frames : List Nat)
  /-- A destructor ran. -/
  | destroyed (thread : Thread)

/-- The frames that one constructor took. -/
structure Holding where
  loaded : Bool
  frames : List Nat

/-- What the constructor of each live address space took. -/
abbrev Ledger := Thread → Option Holding

/-- The effect of one deed on the ledger. -/
def Ledger.apply (ledger : Ledger) : Deed → Ledger
  | .created thread loaded frames => Families.assign ledger thread (some ⟨loaded, frames⟩)
  | .destroyed thread => Families.assign ledger thread none

/-- The ledger after a history, oldest deed first. -/
def Ledger.after (history : List Deed) : Ledger := history.foldl Ledger.apply fun _ => none

/-- Deeds are entered one after the other. -/
@[simp] theorem Ledger.after_append (earlier later : List Deed) :
    Ledger.after (earlier ++ later) = later.foldl Ledger.apply (Ledger.after earlier) := by
  simp [Ledger.after]

/-- The frames that `Find` marked between two states. -/
def taken (before after : Kernel) : List Nat :=
  (List.range numPhysPages).filter fun number =>
    after.physicalPageMap.testBit number && !before.physicalPageMap.testBit number

/-- What a step does to the ledger. -/
def deeds (before : Kernel) (action : Action) (after : Kernel) : List Deed :=
  match action with
  | .exec thread _ => [.created thread true (taken before after)]
  | .fork thread => [.created thread false (taken before after)]
  | .exit =>
    match before.currentThread with
    | some thread => [.destroyed thread]
    | none => []
  | .switchTo _ | .load _ _ | .store _ _ _ => []

/-- The indices of the page table that the two loops of the destructor visit. -/
def AddrSpace.visited (space : AddrSpace) : List Int :=
  (if space.usage - 1 = 0 then indices 0 space.stackPagesInit else []) ++
    indices space.stackPagesInit space.pageTable.length

/-- Every frame that a loop of the destructor clears is its own, and marked at that moment. -/
def Kernel.ClearsMarked (mine : Nat → Prop) (table : List TranslationEntry) :
    Kernel → List Int → Prop
  | _, [] => True
  | kernel, index :: rest => ∃ (entry : TranslationEntry) (number : Nat),
      entryAt table index = some entry ∧ entry.physicalPage = number ∧ mine number ∧
      kernel.physicalPageMap.testBit number = true ∧
      Kernel.ClearsMarked mine table { kernel with
        mainMemory := Blocks.setBlock pageSize kernel.mainMemory number zeroPage
        physicalPageMap := kernel.physicalPageMap.clearBit number } rest

/-- Frames are neither leaked nor given back twice. -/
structure Conserved (kernel : Kernel) (ledger : Ledger) : Prop where
  /-- The destructor of any live address space completes, and clears what its constructor took. -/
  destroys : ∀ thread space, kernel.space thread = some space →
    ∃ holding, ledger thread = some holding ∧
      kernel.ClearsMarked (· ∈ holding.frames) space.pageTable space.visited ∧
      ∃ after, kernel.destroySpace space = .ok after
  /-- Without live address spaces the whole map is clear. -/
  clear : (∀ thread, kernel.space thread = none) →
    ∀ number, number < numPhysPages → kernel.physicalPageMap.testBit number = false

/--
What a step leaves alone, in the address spaces that live through it.

These are all frames of a space that was loaded from an executable, and the stack of every space.
Only the programs' own stores may change their bytes.
-/
def Spares (before : Kernel) (ledger : Ledger) (action : Action) (after : Kernel) : Prop :=
  ∀ thread space, before.space thread = some space → (after.space thread).isSome →
    ∀ holding, ledger thread = some holding → ∀ (page : Nat) entry,
      space.pageTable[page]? = some entry →
      holding.loaded = true ∨ space.stackPagesInit ≤ page →
      ∃ number : Nat, entry.physicalPage = number ∧
        after.physicalPageMap.testBit number = true ∧
        ((∀ addr size value, action ≠ .store addr size value) →
          after.frame number = before.frame number)

/-- An executable is at least as large as its stack. -/
def RoomForStack (_ : Kernel) : Action → Prop
  | .exec _ file => stackPages ≤ file.numPages
  | _ => True

instance (kernel : Kernel) (action : Action) : Decidable (RoomForStack kernel action) :=
  match action with
  | .exec _ file => inferInstanceAs (Decidable (stackPages ≤ file.numPages))
  | .fork _ | .exit | .switchTo _ | .load _ _ | .store _ _ _ => .isTrue trivial

/-- Did this page get its frame from the constructor of its own address space? -/
def Layout.Owns (layout : Layout) (page : Nat) : Prop :=
  layout.usage = 1 ∨ layout.stackPagesInit ≤ page

/-- A layout agrees with what the constructor took. -/
structure Layout.Holds (layout : Layout) (holding : Holding) : Prop where
  usage : layout.usage = if holding.loaded then 1 else 2
  room : stackPages ≤ layout.frames.length
  frames : ∀ number, number ∈ holding.frames ↔ layout.Releases number
  framed : ∀ (page : Nat) frame, layout.frames[page]? = some frame → layout.Owns page →
    ∃ number : Nat, frame = number ∧ number < numPhysPages
  distinct : ∀ (page other : Nat) frame, layout.frames[page]? = some frame →
    layout.frames[other]? = some frame → layout.Owns page → layout.Owns other → page = other

/-- Every marked frame has exactly one owner. -/
structure Owned (kernel : Kernel) (ledger : Ledger) : Prop where
  numBits : kernel.physicalPageMap.numBits = numPhysPages
  known : ∀ thread, (ledger thread).isSome = (kernel.layout thread).isSome
  holds : ∀ thread layout holding, kernel.layout thread = some layout →
    ledger thread = some holding → layout.Holds holding
  marked : ∀ number, number < numPhysPages → (kernel.physicalPageMap.testBit number = true ↔
    ∃ thread holding, ledger thread = some holding ∧ number ∈ holding.frames)
  apart : ∀ thread other holding holding' number, ledger thread = some holding →
    ledger other = some holding' → number ∈ holding.frames → number ∈ holding'.frames →
    thread = other

variable {before after kernel : Kernel} {ledger : Ledger} {thread : Thread} {layout : Layout}

/-- A constructor takes the frames of the pages that do not keep theirs. -/
theorem mem_taken {own : Nat → Bool} {old new : List Int}
    (filled : Filled before after own old new) (number : Nat) :
    number ∈ taken before after ↔ Takes new own number := by
  simp only [taken, List.mem_filter, List.mem_range, Bool.and_eq_true, Bool.not_eq_true']
  constructor
  · -- A bit that is newly set belongs to a page that took a frame.
    rintro ⟨inside, set, free⟩
    refine ((filled.bits number inside).mp set).resolve_left ?_
    simp [free]
  · rintro ⟨page, located, mine⟩
    obtain ⟨other, same, inside, free⟩ := filled.taken page _ located mine
    have equal : number = other := by omega
    subst equal
    exact ⟨inside, (filled.bits number inside).mpr (.inr ⟨page, located, mine⟩), free⟩

/-- A new address space holds what its constructor took. -/
theorem Layout.Holds.created {own : Nat → Bool} {old : List Int} {loaded : Bool}
    (created : Created before after thread layout own old)
    (usage : layout.usage = if loaded then 1 else 2) (room : stackPages ≤ layout.frames.length)
    (owns : ∀ page, own page = true ↔ layout.Owns page) :
    layout.Holds ⟨loaded, taken before after⟩ := by
  refine ⟨usage, room, ?_, ?_, ?_⟩
  · intro number
    rw [mem_taken created.filled]
    simp only [Takes, owns, Layout.Owns, Layout.Releases]
  · intro page frame located mine
    obtain ⟨number, same, inside, -⟩ := created.filled.taken page frame located ((owns page).mpr mine)
    exact ⟨number, same, inside⟩
  · intro page other frame located located' mine mine'
    exact created.filled.apart page other frame located located' ((owns page).mpr mine)
      ((owns other).mpr mine')

/-- A frame that was just taken has no owner yet. -/
theorem Owned.unowned (owned : Owned before ledger) {number : Nat}
    (fresh : number ∈ taken before after) {other : Thread} {holding : Holding}
    (entered : ledger other = some holding) : number ∉ holding.frames := by
  intro member
  simp only [taken, List.mem_filter, List.mem_range, Bool.and_eq_true, Bool.not_eq_true'] at fresh
  have set := (owned.marked number fresh.1).mpr ⟨other, holding, entered, member⟩
  simp [fresh.2.2] at set

/-- A new address space owns the frames its constructor took, and the others keep theirs. -/
theorem Owned.created {own : Nat → Bool} {old : List Int} {loaded : Bool}
    (owned : Owned before ledger) (created : Created before after thread layout own old)
    (holds : layout.Holds ⟨loaded, taken before after⟩) :
    Owned after (ledger.apply (.created thread loaded (taken before after))) := by
  have absent : ledger thread = none := by
    have known := owned.known thread
    rw [created.absent] at known
    simpa using known
  refine ⟨created.filled.numBits, ?_, ?_, ?_, ?_⟩
  · intro other
    simp only [Ledger.apply, Families.assign_apply, created.layouts]
    split
    · rfl
    · exact owned.known other
  · intro other layout' holding located entered
    simp only [Ledger.apply, Families.assign_apply] at entered
    rw [created.layouts] at located
    split at located
    · -- The new thread holds what was just taken.
      rename_i same
      rw [if_pos same] at entered
      cases located
      cases entered
      exact holds
    · rename_i differ
      rw [if_neg differ] at entered
      exact owned.holds other layout' holding located entered
  · intro number inside
    have fresh : Takes layout.frames own number ↔ number ∈ taken before after :=
      (mem_taken created.filled number).symm
    rw [created.filled.bits number inside, owned.marked number inside, fresh]
    constructor
    · rintro (⟨other, holding, entered, member⟩ | member)
      · have differ : other ≠ thread := by
          rintro rfl
          simp [absent] at entered
        exact ⟨other, holding, by simpa [Ledger.apply, Families.assign_apply, differ] using entered,
          member⟩
      · exact ⟨thread, ⟨loaded, taken before after⟩, by simp [Ledger.apply, Families.assign_apply],
          member⟩
    · rintro ⟨other, holding, entered, member⟩
      simp only [Ledger.apply, Families.assign_apply] at entered
      split at entered
      · cases entered
        exact .inr member
      · exact .inl ⟨other, holding, entered, member⟩
  · intro first second holding holding' number entered entered' member member'
    simp only [Ledger.apply, Families.assign_apply] at entered entered'
    split at entered <;> split at entered'
    · rename_i same same'
      exact same.trans same'.symm
    · -- A frame of an older space was marked, so it was not taken now.
      cases entered
      exact absurd member' (owned.unowned member entered')
    · cases entered'
      exact absurd member (owned.unowned member' entered)
    · exact owned.apart first second holding holding' number entered entered' member member'

/-- What a destructor gives back belongs to no one afterwards. -/
theorem Owned.destroyed {holding : Holding} (owned : Owned before ledger)
    (located : before.layout thread = some layout) (entered : ledger thread = some holding)
    (layouts : ∀ other, after.layout other = if other = thread then none else before.layout other)
    (freed : Freed before after layout.Releases) :
    Owned after (ledger.apply (.destroyed thread)) := by
  have holds := owned.holds thread layout holding located entered
  refine ⟨freed.numBits, ?_, ?_, ?_, ?_⟩
  · intro other
    simp only [Ledger.apply, Families.assign_apply, layouts]
    split
    · rfl
    · exact owned.known other
  · intro other layout' holding' located' entered'
    simp only [Ledger.apply, Families.assign_apply] at entered'
    rw [layouts] at located'
    split at located'
    · simp at located'
    · rename_i differ
      rw [if_neg differ] at entered'
      exact owned.holds other layout' holding' located' entered'
  · intro number inside
    rw [freed.bits number inside, owned.marked number inside, ← holds.frames number]
    constructor
    · -- The owner of a frame that stays marked is another thread.
      rintro ⟨⟨other, holding', entered', member⟩, kept⟩
      have differ : other ≠ thread := by
        rintro rfl
        rw [entered, Option.some.injEq] at entered'
        exact kept (entered' ▸ member)
      exact ⟨other, holding', by simpa [Ledger.apply, Families.assign_apply, differ] using entered',
        member⟩
    · rintro ⟨other, holding', entered', member⟩
      simp only [Ledger.apply, Families.assign_apply] at entered'
      split at entered'
      · simp at entered'
      · rename_i differ
        refine ⟨⟨other, holding', entered', member⟩, ?_⟩
        intro mine
        exact differ (owned.apart other thread holding' holding number entered' entered member mine)
  · intro first second holding₁ holding₂ number entered₁ entered₂
    simp only [Ledger.apply, Families.assign_apply] at entered₁ entered₂
    split at entered₁
    · simp at entered₁
    · split at entered₂
      · simp at entered₂
      · exact owned.apart first second holding₁ holding₂ number entered₁ entered₂

/-- Steps that move no page keep every owner. -/
theorem Owned.unmoved (owned : Owned before ledger) (layouts : after.layout = before.layout)
    (map : after.physicalPageMap = before.physicalPageMap) : Owned after ledger := by
  refine ⟨?_, ?_, ?_, ?_, owned.apart⟩
  · rw [map]
    exact owned.numBits
  · rw [layouts]
    exact owned.known
  · rw [layouts]
    exact owned.holds
  · rw [map]
    exact owned.marked

/-- Nothing is owned at boot. -/
theorem Boot.owned (boot : Boot kernel) : Owned kernel (Ledger.after []) := by
  obtain ⟨garbage, covers, fresh⟩ := boot.freshMap
  have none : ∀ thread, kernel.layout thread = none := by
    intro thread
    simp [Kernel.layout, boot.noSpaces]
  refine ⟨by simp [fresh], by simp [Ledger.after, none], by simp [none], ?_, by simp [Ledger.after]⟩
  intro number inside
  rw [fresh, BitMap.testBit_new covers inside]
  simp [Ledger.after]

/-- A loop over two ranges of indices is two loops. -/
theorem Kernel.releasePages_append (table : List TranslationEntry) (first second : List Int) :
    ∀ kernel : Kernel, kernel.releasePages table (first ++ second) =
      (kernel.releasePages table first).bind fun middle => middle.releasePages table second := by
  induction first with
  | nil => exact fun _ => rfl
  | cons index first ih =>
    intro kernel
    rw [List.cons_append, Kernel.releasePages, Kernel.releasePages]
    -- Both sides clear the same frame first, or fail in the same way.
    cases entryAt table index with
    | none => rfl
    | some entry =>
      dsimp only
      cases kernel.physicalPageMap.clear entry.physicalPage with
      | error fault => rfl
      | ok map =>
        cases frameNumber entry.physicalPage with
        | error fault => rfl
        | ok number => exact ih _

/-- The destructor is one loop over the indices it visits. -/
theorem Kernel.destroySpace_eq (kernel : Kernel) (space : AddrSpace) :
    kernel.destroySpace space = kernel.releasePages space.pageTable space.visited := by
  rw [AddrSpace.visited, Kernel.releasePages_append, Kernel.destroySpace, Kernel.releaseGlobals]
  split <;> rfl

/-- No index is visited twice. -/
theorem nodup_indices (first bound : Int) : (indices first bound).Nodup := by
  refine List.Nodup.map ?_ List.nodup_range
  intro offset other same
  dsimp only at same
  omega

/-- The destructor visits no page twice when there is room for the stack. -/
theorem AddrSpace.nodup_visited (space : AddrSpace) : space.visited.Nodup := by
  rw [AddrSpace.visited]
  refine List.nodup_append.mpr ⟨?_, nodup_indices _ _, ?_⟩
  · split
    · exact nodup_indices _ _
    · exact List.nodup_nil
  · -- Code and data end where the stack begins.
    rintro index low other high rfl
    rw [mem_indices] at high
    split at low
    · rw [mem_indices] at low
      omega
    · simp at low

/-- The pages that the destructor visits own their frames. -/
theorem AddrSpace.mem_visited {space : AddrSpace} (room : 0 ≤ space.stackPagesInit) {index : Int}
    (visited : index ∈ space.visited) :
    ∃ (page : Nat) (entry : TranslationEntry), index = page ∧
      entryAt space.pageTable index = some entry ∧
      space.layout.frames[page]? = some entry.physicalPage ∧ space.layout.Owns page := by
  have bounds : 0 ≤ index ∧ index < space.pageTable.length ∧
      (space.usage = 1 ∨ space.stackPagesInit ≤ index) := by
    have inside : space.stackPagesInit ≤ space.pageTable.length := by
      have positive : (0 : Int) ≤ stackPages := by decide
      rw [AddrSpace.stackPagesInit]
      omega
    rcases List.mem_append.mp visited with low | high
    · split at low
      · rw [mem_indices] at low
        omega
      · simp at low
    · rw [mem_indices] at high
      omega
  obtain ⟨natural, inside, mine⟩ := bounds
  have small : index.toNat < space.pageTable.length := by omega
  refine ⟨index.toNat, space.pageTable[index.toNat], by omega, ?_, ?_, ?_⟩
  · rw [entryAt, if_pos natural]
    exact List.getElem?_eq_getElem small
  · simp [AddrSpace.layout, List.getElem?_eq_getElem small]
  · rw [Layout.Owns, AddrSpace.layout_stackPagesInit, Int.toNat_of_nonneg natural]
    exact mine

/-- A loop over pages with marked frames of their own completes, and clears each of them once. -/
theorem Kernel.releasePages_marked {mine : Nat → Prop} {table : List TranslationEntry}
    {visited : List Int} : ∀ {kernel : Kernel},
      kernel.physicalPageMap.numBits = numPhysPages → visited.Nodup →
      (∀ index ∈ visited, ∃ (entry : TranslationEntry) (number : Nat),
        entryAt table index = some entry ∧ entry.physicalPage = number ∧ number < numPhysPages ∧
        mine number ∧ kernel.physicalPageMap.testBit number = true) →
      (∀ index ∈ visited, ∀ other ∈ visited, ∀ entry entry', entryAt table index = some entry →
        entryAt table other = some entry' → entry.physicalPage = entry'.physicalPage →
        index = other) →
      kernel.ClearsMarked mine table visited ∧
        ∃ after, kernel.releasePages table visited = .ok after := by
  induction visited with
  | nil => exact fun _ _ _ _ => ⟨trivial, _, rfl⟩
  | cons index visited ih =>
    intro kernel bits once marked distinct
    obtain ⟨entry, number, located, named, inside, own, set⟩ := marked index List.mem_cons_self
    obtain ⟨fresh, once⟩ := List.nodup_cons.mp once
    -- Clearing one frame leaves the frames of the later pages marked.
    have later : ∀ later ∈ visited, ∃ (entry : TranslationEntry) (number' : Nat),
        entryAt table later = some entry ∧ entry.physicalPage = number' ∧
        number' < numPhysPages ∧ mine number' ∧
        (kernel.physicalPageMap.clearBit number).testBit number' = true := by
      intro later member
      obtain ⟨entry', number', located', named', inside', own', set'⟩ :=
        marked later (List.mem_cons_of_mem _ member)
      refine ⟨entry', number', located', named', inside', own', ?_⟩
      have differ : number ≠ number' := by
        rintro rfl
        have same := distinct index List.mem_cons_self later (List.mem_cons_of_mem _ member)
          entry entry' located located' (named.trans named'.symm)
        exact fresh (same ▸ member)
      rw [BitMap.testBit_clearBit _ _ _ (by rw [bits]; exact inside'), set']
      simpa using differ
    obtain ⟨clears, after, released⟩ := @ih { kernel with
        mainMemory := Blocks.setBlock pageSize kernel.mainMemory number zeroPage
        physicalPageMap := kernel.physicalPageMap.clearBit number } bits once later
      (fun later member other member' => distinct later (List.mem_cons_of_mem _ member) other
        (List.mem_cons_of_mem _ member'))
    refine ⟨⟨entry, number, located, named, own, set, clears⟩, after, ?_⟩
    have cleared : kernel.physicalPageMap.clear entry.physicalPage =
        .ok (kernel.physicalPageMap.clearBit number) := by
      rw [BitMap.clear, named, BitMap.inRange, bits, if_pos (by simpa using inside)]
      simp
    have framed : frameNumber entry.physicalPage = .ok number := by
      rw [frameNumber, named, if_pos (by omega)]
      simp
    rw [Kernel.releasePages, located]
    simp only [cleared, framed]
    exact released

/-- The destructor clears only entries that the page table has. -/
theorem Kernel.ClearsMarked.located {mine : Nat → Prop} {table : List TranslationEntry}
    {visited : List Int} {index : Int} : ∀ {kernel : Kernel},
      kernel.ClearsMarked mine table visited → index ∈ visited →
      ∃ entry, entryAt table index = some entry := by
  induction visited with
  | nil => simp
  | cons first visited ih =>
    intro kernel clears member
    obtain ⟨entry, number, located, -, -, -, later⟩ := clears
    rcases List.mem_cons.mp member with rfl | member
    · exact ⟨entry, located⟩
    · exact ih later member

/-- While every marked frame has one owner, frames are conserved. -/
theorem Owned.conserved (owned : Owned kernel ledger) : Conserved kernel ledger := by
  refine ⟨?_, ?_⟩
  · intro thread space located
    have layout : kernel.layout thread = some space.layout :=
      Kernel.layout_eq_some.mpr ⟨space, located, rfl⟩
    have known := owned.known thread
    rw [layout, Option.isSome_some, Option.isSome_iff_exists] at known
    obtain ⟨holding, entered⟩ := known
    have holds := owned.holds thread space.layout holding layout entered
    have room : 0 ≤ space.stackPagesInit := by
      have room := holds.room
      rw [AddrSpace.layout, List.length_map] at room
      rw [AddrSpace.stackPagesInit]
      omega
    rw [Kernel.destroySpace_eq]
    refine ⟨holding, entered, Kernel.releasePages_marked owned.numBits space.nodup_visited ?_ ?_⟩
    · intro index member
      obtain ⟨page, entry, -, found, framed, mine⟩ := AddrSpace.mem_visited room member
      obtain ⟨number, named, inside⟩ := holds.framed page _ framed mine
      have held : number ∈ holding.frames :=
        (holds.frames number).mpr ⟨page, named ▸ framed, mine⟩
      exact ⟨entry, number, found, named, inside, held,
        (owned.marked number inside).mpr ⟨thread, holding, entered, held⟩⟩
    · intro index member other member' entry entry' found found' same
      obtain ⟨page, first, here, found₁, framed, mine⟩ := AddrSpace.mem_visited room member
      obtain ⟨page', second, here', found₂, framed', mine'⟩ := AddrSpace.mem_visited room member'
      rw [found, Option.some.injEq] at found₁
      rw [found', Option.some.injEq] at found₂
      subst found₁ found₂
      have pages := holds.distinct page page' _ framed (same ▸ framed') mine mine'
      rw [here, here', pages]
  · intro none number inside
    rw [← Bool.not_eq_true, owned.marked number inside]
    rintro ⟨thread, holding, entered, -⟩
    have known := owned.known thread
    simp [entered, Kernel.layout, none] at known

/-- A page whose frame was taken by its constructor has a marked frame that the ledger names. -/
theorem Owned.held {holding : Holding} {page : Nat} {frame : Int} (owned : Owned kernel ledger)
    (located : kernel.layout thread = some layout) (entered : ledger thread = some holding)
    (framed : layout.frames[page]? = some frame) (mine : layout.Owns page) :
    ∃ number : Nat, frame = number ∧ number < numPhysPages ∧ number ∈ holding.frames ∧
      kernel.physicalPageMap.testBit number = true := by
  have holds := owned.holds thread layout holding located entered
  obtain ⟨number, rfl, inside⟩ := holds.framed page frame framed mine
  have member : number ∈ holding.frames := (holds.frames number).mpr ⟨page, framed, mine⟩
  exact ⟨number, rfl, inside, member,
    (owned.marked number inside).mpr ⟨thread, holding, entered, member⟩⟩

/-- The counter of a space that was loaded from an executable is one. -/
theorem usage_exec {file : Executable} (bits : before.physicalPageMap.numBits = numPhysPages)
    (done : step before (.exec thread file) = .ok after)
    (located : after.layout thread = some layout) : layout.usage = 1 := by
  simp only [step] at done
  split at done
  · simp at done
  · obtain ⟨⟨space, middle⟩, loaded, done⟩ := Runs.bind_eq_ok.mp done
    simp only [Pure.pure, Except.pure, Except.ok.injEq] at done
    subst done
    obtain ⟨-, -, -, usage, -⟩ := Kernel.loadExecutable_spec bits loaded
    have found : some space.layout = some layout := by
      simpa [Kernel.layout, Kernel.setSpace] using located
    rw [← Option.some.inj found]
    exact usage

/-- The counter of a copy is two. -/
theorem usage_fork (bits : before.physicalPageMap.numBits = numPhysPages)
    (done : step before (.fork thread) = .ok after)
    (located : after.layout thread = some layout) : layout.usage = 2 := by
  simp only [step] at done
  split at done
  · obtain ⟨⟨space, middle⟩, copied, done⟩ := Runs.bind_eq_ok.mp done
    simp only [Pure.pure, Except.pure, Except.ok.injEq] at done
    subst done
    obtain ⟨-, usage, -, -⟩ := Kernel.copySpace_spec bits copied
    have found : some space.layout = some layout := by
      simpa [Kernel.layout, Kernel.setSpace] using located
    rw [← Option.some.inj found]
    exact usage
  · simp at done

/-- A step keeps every marked frame with exactly one owner. -/
theorem Owned.stepped {action : Action} (owned : Owned before ledger)
    (room : RoomForStack before action) (done : step before action = .ok after) :
    Owned after ((deeds before action after).foldl Ledger.apply ledger) := by
  cases step_spec owned.numBits done with
  | @exec thread file layout old _ created pages =>
    -- All pages of the new space have frames of their own, and its counter says so.
    have usage := usage_exec owned.numBits done (by rw [created.layouts, if_pos rfl])
    have large : stackPages ≤ layout.frames.length := by
      rw [pages]
      exact room
    exact owned.created created (Layout.Holds.created created (by simp [usage]) large
      (by simp [Layout.Owns, usage]))
  | @fork parent thread father layout _ running located created =>
    -- The copy owns its stack, which is where that of its father is.
    have usage := usage_fork owned.numBits done (by rw [created.layouts, if_pos rfl])
    have length : layout.frames.length = father.frames.length := created.filled.length
    have known := owned.known parent
    rw [located, Option.isSome_some, Option.isSome_iff_exists] at known
    obtain ⟨holding, entered⟩ := known
    have large := (owned.holds parent father holding located entered).room
    rw [← length] at large
    refine owned.created created (Layout.Holds.created created (by simp [usage]) large ?_)
    intro page
    have stack : layout.stackPagesInit = father.stackPagesInit := by
      rw [Layout.stackPagesInit, Layout.stackPagesInit, length]
    rw [Layout.Owns, usage, stack]
    simp
  | @exit thread space _ running layouts freed =>
    obtain ⟨current, home⟩ := Kernel.running_eq_some.mp running
    have located : before.layout thread = some space.layout :=
      Kernel.layout_eq_some.mpr ⟨space, home, rfl⟩
    have known := owned.known thread
    rw [located, Option.isSome_some, Option.isSome_iff_exists] at known
    obtain ⟨holding, entered⟩ := known
    simp only [deeds, current, List.foldl_cons, List.foldl_nil]
    exact owned.destroyed located entered layouts freed
  | switchTo layouts _ map => exact owned.unmoved layouts map
  | load hit decoded layouts memory map shows => exact owned.unmoved layouts map
  | store hit encoded layouts memory map => exact owned.unmoved layouts map

/-- A step spares the frames that other constructors took. -/
theorem Owned.spares {action : Action} (owned : Owned before ledger)
    (done : step before action = .ok after) : Spares before ledger action after := by
  intro thread space home survives holding entered page entry found mine
  have located : before.layout thread = some space.layout :=
    Kernel.layout_eq_some.mpr ⟨space, home, rfl⟩
  have holds := owned.holds thread space.layout holding located entered
  have owns : space.layout.Owns page := by
    rw [Layout.Owns, AddrSpace.layout_stackPagesInit]
    refine mine.imp_left fun loaded => ?_
    rw [holds.usage, if_pos loaded]
  obtain ⟨number, named, inside, member, set⟩ := owned.held located entered
    (AddrSpace.layout_frames.mpr ⟨entry, found, rfl⟩) owns
  refine ⟨number, named, ?_⟩
  cases step_spec owned.numBits done with
  | exec created pages =>
    -- `Find` never answers with a marked frame, and no other frame is cleared or read into.
    exact ⟨(created.filled.bits number inside).mpr (.inl set),
      fun _ => created.filled.frames number inside set⟩
  | fork running located created =>
    exact ⟨(created.filled.bits number inside).mpr (.inl set),
      fun _ => created.filled.frames number inside set⟩
  | @exit leaving gone _ running layouts freed =>
    -- The thread that exits is another one, and owns other frames.
    have differ : thread ≠ leaving := by
      rintro rfl
      have absent : after.layout thread = none := by rw [layouts, if_pos rfl]
      rw [Option.isSome_iff_exists] at survives
      obtain ⟨space, survives⟩ := survives
      simp [Kernel.layout, survives] at absent
    have located' : before.layout leaving = some gone.layout :=
      Kernel.layout_eq_some.mpr ⟨gone, (Kernel.running_eq_some.mp running).2, rfl⟩
    have known := owned.known leaving
    rw [located', Option.isSome_some, Option.isSome_iff_exists] at known
    obtain ⟨holding', entered'⟩ := known
    have kept : ¬ gone.layout.Releases number := by
      rw [← (owned.holds leaving gone.layout holding' located' entered').frames number]
      intro member'
      exact differ (owned.apart thread leaving holding holding' number entered entered' member
        member')
    exact ⟨(freed.bits number inside).mpr ⟨set, kept⟩, fun _ => freed.frames number kept⟩
  | switchTo layouts memory map => exact ⟨map ▸ set, fun _ => by rw [Kernel.frame, memory]; rfl⟩
  | load hit decoded layouts memory map shows =>
    exact ⟨map ▸ set, fun _ => by rw [Kernel.frame, memory]; rfl⟩
  | store hit encoded layouts memory map =>
    exact ⟨map ▸ set, fun other => absurd rfl (other _ _ _)⟩

/-- Every marked frame has one owner while executables leave room for their stack. -/
theorem owned_of_traced {history : List Deed}
    (traced : Runs.Traced step Boot RoomForStack deeds kernel history) :
    Owned kernel (Ledger.after history) := by
  refine traced.invariant (fun kernel history => Owned kernel (Ledger.after history)) ?_ ?_
  · intro kernel boot
    exact boot.owned
  · intro before action after history owned room done
    rw [Ledger.after_append]
    exact owned.stepped room done

/-- A space that can be destroyed has room for its stack. -/
theorem Conserved.room {space : AddrSpace} (conserved : Conserved kernel ledger)
    (located : kernel.space thread = some space) : stackPages ≤ space.pageTable.length := by
  obtain ⟨holding, -, clears, -⟩ := conserved.destroys thread space located
  have positive : 0 < stackPages := by decide
  -- The loop over the stack begins at the first page of the stack.
  have first : space.stackPagesInit ∈ space.visited := by
    rw [AddrSpace.visited, List.mem_append, mem_indices]
    refine .inr ⟨Int.le_refl _, ?_⟩
    rw [AddrSpace.stackPagesInit]
    omega
  obtain ⟨entry, found⟩ := clears.located first
  rw [entryAt] at found
  split at found
  · rename_i natural
    rw [AddrSpace.stackPagesInit] at natural
    omega
  · simp at found

/--
Frames are neither leaked nor given back twice as long as executables leave room for their stack.

The first executable that is smaller than its stack gets an address space whose destructor reads
its page table at a negative index.
-/
theorem frames_conserved_iff_room {history : List Deed}
    (traced : Runs.Traced step Boot RoomForStack deeds kernel history) :
    Conserved kernel (Ledger.after history) ∧ ∀ action after, step kernel action = .ok after →
      Spares kernel (Ledger.after history) action after ∧
      (Conserved after (Ledger.after (history ++ deeds kernel action after)) ↔
        RoomForStack kernel action) := by
  have owned := owned_of_traced traced
  refine ⟨owned.conserved, ?_⟩
  intro action after done
  refine ⟨owned.spares done, ?_⟩
  rw [Ledger.after_append]
  constructor
  · intro conserved
    cases step_spec owned.numBits done with
    | @exec thread file layout old _ created pages =>
      have located : after.layout thread = some layout := by rw [created.layouts, if_pos rfl]
      obtain ⟨space, home, rfl⟩ := Kernel.layout_eq_some.mp located
      have room := conserved.room home
      rw [AddrSpace.layout, List.length_map] at pages
      rw [RoomForStack, ← pages]
      exact room
    | fork | exit | switchTo | load | store => trivial
  · intro room
    exact (owned.stepped room done).conserved

/-- Parent and child run, the parent exits first, and its frames go to another program. -/
def parentExitsFirst : List Action :=
  [.exec 1 shortProgram, .fork 2, .exit, .exec 3 shortProgram, .switchTo 2, .exit]

/-- After the exits of parent and child every frame still has one owner. -/
theorem frames_conserved_parentExitsFirst :
    ∃ kernel, Runs.run step firstKernel parentExitsFirst = .ok kernel ∧
      (kernel.space 3).isSome ∧
      Conserved kernel (Ledger.after (Runs.record step deeds firstKernel parentExitsFirst)) := by
  obtain ⟨kernel, ran, lives⟩ := Runs.exists_of_runsTo
    (show Runs.runsTo step firstKernel parentExitsFirst (fun kernel => (kernel.space 3).isSome) =
      true by decide +kernel)
  have guarded : Runs.Guarded step RoomForStack firstKernel parentExitsFirst := by decide +kernel
  exact ⟨kernel, ran, lives, (frames_conserved_iff_room
    (Runs.Traced.extend (.start firstKernel_boot) guarded ran)).1⟩

/-- A program whose sizes add up to less than nothing: one page of code, and no room for a stack. -/
def stacklessProgram : Executable where
  header := ⟨true, ⟨0#32, 40#32, 128#32⟩, ⟨0#32, 0#32, 0#32⟩, ⟨0#32, 0#32, -1024#32⟩⟩
  contents := List.replicate 168 5#8
  fits := fits_onePage

/-- The destructor of that program reads its page table at index -7. -/
theorem not_conserved_stackless :
    Boot firstKernel ∧ ∃ kernel, Runs.run step firstKernel [.exec 1 stacklessProgram] = .ok kernel ∧
      step kernel .exit = .error (.wildAccess (-7)) ∧
      ¬ Conserved kernel
        (Ledger.after (Runs.record step deeds firstKernel [.exec 1 stacklessProgram])) := by
  refine ⟨firstKernel_boot, ?_⟩
  obtain ⟨kernel, ran, seen⟩ := Runs.exists_of_runsTo
    (show Runs.runsTo step firstKernel [.exec 1 stacklessProgram] (fun kernel =>
      (match step kernel .exit with
        | .error fault => fault == .wildAccess (-7)
        | .ok _ => false) &&
      (kernel.space 1).any fun space => space.pageTable.length == 1) = true by decide +kernel)
  rw [Bool.and_eq_true] at seen
  obtain ⟨failed, short⟩ := seen
  refine ⟨kernel, ran, ?_, ?_⟩
  · split at failed
    · rename_i fault failure
      rw [failure, beq_iff_eq.mp failed]
    · simp at failed
  · intro conserved
    obtain ⟨space, located, short⟩ := (Option.any_eq_true _ _).mp short
    have room := conserved.room located
    rw [beq_iff_eq.mp short] at room
    exact absurd room (by decide)

end Nachos.Userprog
