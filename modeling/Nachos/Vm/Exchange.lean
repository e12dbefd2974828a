import Nachos.Vm.Swap

/-! `BackingStore::pageOut` and `pageIn`, in any order, with programs that write in between. -/

namespace Nachos.Vm

/-- A use of the backing store, or a write to a frame. -/
inductive Exchange where
  | pageOut (victim : PageRef)
  | pageIn (page victim : PageRef)
  | write (number : Nat) (contents : Page)

/-- One of these. -/
def exchange (kernel : Kernel) : Exchange → Except Fault Kernel
  | .pageOut victim => kernel.pageOut victim
  | .pageIn page victim => kernel.pageIn page victim
  | .write number contents => .ok (kernel.setFrame number contents)

/-- A page that is in a frame, not protected, and not in the backing store. -/
structure Kernel.Victim (kernel : Kernel) (victim : PageRef) (out : TranslationEntry)
    (number : Nat) : Prop where
  located : kernel.invertedTable.entry victim = some out
  framed : out.physicalPage = number
  inside : number < numPhysPages
  open_ : out.readOnly = false
  unstored : kernel.invertedTable.entryAddress victim ∉ kernel.backingStore.getKeys

/-- Victims are such pages, pages that come in are in the store, and writes go to resident pages. -/
def Permitted (kernel : Kernel) : Exchange → Prop
  | .pageOut victim => ∃ out number, kernel.Victim victim out number
  | .pageIn page victim => (∃ out number, kernel.Victim victim out number) ∧
      (kernel.invertedTable.entry page).isSome = true ∧
      kernel.invertedTable.entryAddress page ∈ kernel.backingStore.getKeys
  | .write number _ => number < numPhysPages ∧
      ∃ ref, kernel.invertedTable.frameOf ref = some (number : Int)

/-- A page that leaves memory, or comes back. -/
inductive Swapping where
  | out (page : PageRef) (contents : Page)
  | back (page : PageRef)

/-- The pages that are moved, the victim first. -/
def observeExchange (before : Kernel) (action : Exchange) (_ : Kernel) : List Swapping :=
  match action with
  | .pageOut victim => [.out victim (before.bytesOf victim)]
  | .pageIn page victim => [.out victim (before.bytesOf victim), .back page]
  | .write _ _ => []

/-- The pages that are out, with their bytes. -/
def Swapping.apply (outside : PageRef → Option Page) : Swapping → PageRef → Option Page
  | .out page contents => Function.update outside page (some contents)
  | .back page => Function.update outside page none

/-- The pages that are swapped out after a history, with the bytes they had when they left. -/
def swappedOut (history : List Swapping) : PageRef → Option Page :=
  history.foldl Swapping.apply fun _ => none

/-- Any page tables, whose entries are distinct objects, and an empty backing store. -/
structure ExchangeStart (kernel : Kernel) : Prop where
  bits : kernel.physicalPageMap.numBits = numPhysPages
  framed : ∀ ref entry, kernel.invertedTable.entry ref = some entry → Framed entry.physicalPage
  apart : ∀ first second, (kernel.invertedTable.entry first).isSome = true →
    (kernel.invertedTable.entry second).isSome = true →
    kernel.invertedTable.entryAddress first = kernel.invertedTable.entryAddress second →
    first = second
  empty : kernel.backingStore = Map.empty

/-- The store holds exactly the pages that are out. -/
structure Holds (kernel : Kernel) (outside : PageRef → Option Page) : Prop where
  bits : kernel.physicalPageMap.numBits = numPhysPages
  framed : ∀ ref entry, kernel.invertedTable.entry ref = some entry → Framed entry.physicalPage
  apart : ∀ first second, (kernel.invertedTable.entry first).isSome = true →
    (kernel.invertedTable.entry second).isSome = true →
    kernel.invertedTable.entryAddress first = kernel.invertedTable.entryAddress second →
    first = second
  distinct : kernel.backingStore.getKeys.Nodup
  absent : ∀ ref contents, outside ref = some contents →
    kernel.invertedTable.frameOf ref = some noPhysicalPage
  held : ∀ ref, (kernel.invertedTable.entry ref).isSome = true →
    kernel.backingStore.get? (kernel.invertedTable.entryAddress ref) = outside ref
  listed : ∀ address ∈ kernel.backingStore.getKeys, ∃ ref contents,
    outside ref = some contents ∧ kernel.invertedTable.entryAddress ref = address

/-- What both operations do to the victim, and what they leave alone. -/
structure Evicts (before after : Kernel) (victim : PageRef) (number : Nat) (moved : List PageRef) :
    Prop where
  had : before.invertedTable.frameOf victim = some (number : Int)
  absent : after.invertedTable.frameOf victim = some noPhysicalPage
  stored : after.backingStore.get? (before.invertedTable.entryAddress victim) =
    some (before.frame number)
  frames : ∀ other ≠ number, after.frame other = before.frame other
  pages : ∀ address, (∀ ref ∈ moved, before.invertedTable.entryAddress ref ≠ address) →
    after.backingStore.get? address = before.backingStore.get? address
  entries : ∀ ref ∉ moved, after.invertedTable.entry ref = before.invertedTable.entry ref

variable {kernel after : Kernel} {page victim : PageRef} {out : TranslationEntry} {number : Nat}
  {outside : PageRef → Option Page}

/-- The kernel that `pageOut` leaves. -/
def Kernel.afterPageOut (kernel : Kernel) (victim : PageRef) (number : Nat) : Kernel :=
  { kernel with
    invertedTable := kernel.invertedTable.modifyEntry victim evicted
    physicalPageMap := kernel.physicalPageMap.clearBit number
    mainMemory := Blocks.setBlock pageSize kernel.mainMemory number zeroPage
    backingStore := kernel.backingStore.insert (kernel.invertedTable.entryAddress victim)
      (kernel.frame number) }

/-- The kernel that `pageIn` leaves, when the incoming page was stored with these bytes. -/
def Kernel.afterPageIn (kernel : Kernel) (page victim : PageRef) (number : Nat) (contents : Page) :
    Kernel :=
  { kernel with
    invertedTable := ((kernel.invertedTable.modifyEntry page (installed number)).modifyEntry
      victim evicted).modifyEntry page referenced
    mainMemory := Blocks.setBlock pageSize kernel.mainMemory number contents
    backingStore := (kernel.backingStore.insert (kernel.invertedTable.entryAddress victim)
      (kernel.frame number)).erase (kernel.invertedTable.entryAddress page) }

/-- The number of a frame. -/
theorem frameNumber_natCast (inside : number < numPhysPages) :
    frameNumber (number : Int) = .ok number := by
  have range : (0 : Int) ≤ number ∧ (number : Int) < numPhysPages := by omega
  rw [frameNumber, if_pos range, Int.toNat_natCast]

/-- The victim is a page of the kernel. -/
theorem Kernel.Victim.present (chosen : kernel.Victim victim out number) :
    (kernel.invertedTable.entry victim).isSome = true := by
  rw [chosen.located]
  rfl

/-- A page that is not in the store is not found there. -/
theorem Kernel.Victim.missing (chosen : kernel.Victim victim out number) :
    kernel.backingStore.get? (kernel.invertedTable.entryAddress victim) = none := by
  by_contra found
  obtain ⟨contents, found⟩ := Option.ne_none_iff_exists'.mp found
  exact chosen.unstored ((Map.mem_getKeys _ _).mpr ⟨contents, found⟩)

/-- The victim has a frame. -/
theorem Kernel.Victim.frameOf (chosen : kernel.Victim victim out number) :
    kernel.invertedTable.frameOf victim = some (number : Int) := by
  rw [InvertedTable.frameOf, chosen.located, Option.map_some, chosen.framed]

/-- The bytes of the victim are those of its frame. -/
theorem Kernel.Victim.bytesOf (chosen : kernel.Victim victim out number) :
    kernel.bytesOf victim = kernel.frame number := by
  rw [Kernel.bytesOf, chosen.frameOf]
  rfl

/-- `pageOut` of such a victim succeeds. -/
theorem Kernel.Victim.pageOut (chosen : kernel.Victim victim out number)
    (bits : kernel.physicalPageMap.numBits = numPhysPages) :
    kernel.pageOut victim = .ok (kernel.afterPageOut victim number) := by
  have range : kernel.physicalPageMap.inRange (number : Int) = true := by
    have inside := chosen.inside
    simp only [BitMap.inRange, bits, Bool.and_eq_true, decide_eq_true_eq]
    omega
  simp only [Kernel.pageOut, InvertedTable.deref, chosen.located, chosen.framed, chosen.open_,
    frameNumber_natCast chosen.inside, BitMap.clear, range, if_true, Bind.bind, Except.bind,
    Pure.pure, Except.pure, Int.toNat_natCast, Bool.false_eq_true, if_false]
  rfl

/-- `pageIn` of a stored page with such a victim succeeds. -/
theorem Kernel.Victim.pageIn (chosen : kernel.Victim victim out number) {contents : Page}
    (found : kernel.backingStore.get? (kernel.invertedTable.entryAddress page) = some contents) :
    kernel.pageIn page victim = .ok (kernel.afterPageIn page victim number contents) := by
  have still : (kernel.backingStore.insert (kernel.invertedTable.entryAddress victim)
      (kernel.frame number)).get? (kernel.invertedTable.entryAddress page) = some contents := by
    rw [Map.get?_insert, found, Option.some_or]
  simp only [Kernel.pageIn, InvertedTable.deref, chosen.located, chosen.framed, chosen.open_,
    frameNumber_natCast chosen.inside, still, Map.remove, Bind.bind, Except.bind, Pure.pure,
    Except.pure, Bool.false_eq_true, if_false]
  rfl

/-- Two pages whose entries are at different places are stored under different keys. -/
theorem Holds.apart_ne (holds : Holds kernel outside) {first second : PageRef}
    (one : (kernel.invertedTable.entry first).isSome = true)
    (two : (kernel.invertedTable.entry second).isSome = true) (differ : first ≠ second) :
    kernel.invertedTable.entryAddress first ≠ kernel.invertedTable.entryAddress second :=
  fun same => differ (holds.apart first second one two same)

/-- The entries after `pageOut`. -/
theorem entry_afterPageOut (kernel : Kernel) (victim ref : PageRef) (number : Nat) :
    (kernel.afterPageOut victim number).invertedTable.entry ref =
      if ref = victim then (kernel.invertedTable.entry ref).map evicted
      else kernel.invertedTable.entry ref :=
  InvertedTable.entry_modifyEntry ..

/-- The entries after `pageIn`. -/
theorem entry_afterPageIn (kernel : Kernel) {page victim : PageRef} (differ : victim ≠ page)
    (ref : PageRef) (number : Nat) (contents : Page) :
    (kernel.afterPageIn page victim number contents).invertedTable.entry ref =
      if ref = page then (kernel.invertedTable.entry ref).map (referenced ∘ installed number)
      else if ref = victim then (kernel.invertedTable.entry ref).map evicted
      else kernel.invertedTable.entry ref := by
  simp only [Kernel.afterPageIn, InvertedTable.entry_modifyEntry]
  by_cases here : ref = page
  · have other : ref ≠ victim := fun same => differ (same.symm.trans here)
    simp only [here, if_true, if_neg (here ▸ other), Option.map_map]
  · simp only [if_neg here]

/-- No page comes or goes with `pageOut`. -/
theorem isSome_afterPageOut (kernel : Kernel) (victim ref : PageRef) (number : Nat) :
    ((kernel.afterPageOut victim number).invertedTable.entry ref).isSome =
      (kernel.invertedTable.entry ref).isSome := by
  rw [entry_afterPageOut]
  split <;> simp

/-- No page comes or goes with `pageIn`. -/
theorem isSome_afterPageIn (kernel : Kernel) {page victim : PageRef} (differ : victim ≠ page)
    (ref : PageRef) (number : Nat) (contents : Page) :
    ((kernel.afterPageIn page victim number contents).invertedTable.entry ref).isSome =
      (kernel.invertedTable.entry ref).isSome := by
  rw [entry_afterPageIn kernel differ]
  split
  · simp
  · split <;> simp

/-- The entries stay where they are, so a page keeps its key. -/
theorem entryAddress_afterPageOut (kernel : Kernel) (victim ref : PageRef) (number : Nat) :
    (kernel.afterPageOut victim number).invertedTable.entryAddress ref =
      kernel.invertedTable.entryAddress ref :=
  InvertedTable.entryAddress_modifyEntry ..

/-- This holds of `pageIn` too. -/
theorem entryAddress_afterPageIn (kernel : Kernel) (page victim ref : PageRef) (number : Nat)
    (contents : Page) :
    (kernel.afterPageIn page victim number contents).invertedTable.entryAddress ref =
      kernel.invertedTable.entryAddress ref := by
  simp [Kernel.afterPageIn]

/-- The store is the one that `pageOut` leaves, without the incoming page. -/
theorem backingStore_afterPageIn (kernel : Kernel) (page victim : PageRef) (number : Nat)
    (contents : Page) :
    (kernel.afterPageIn page victim number contents).backingStore =
      (kernel.afterPageOut victim number).backingStore.erase
        (kernel.invertedTable.entryAddress page) := rfl

/-- A page that is out is not the victim, which has a frame. -/
theorem Holds.victim_ne (holds : Holds kernel outside) (chosen : kernel.Victim victim out number)
    {contents : Page} (found : outside page = some contents) : victim ≠ page := by
  rintro rfl
  have absent := holds.absent victim contents found
  rw [chosen.frameOf, Option.some.injEq] at absent
  exact natCast_ne_noPhysicalPage number absent

/-- `pageOut` keeps the store in step, and adds the victim to it. -/
theorem Holds.pageOut (holds : Holds kernel outside)
    (chosen : kernel.Victim victim out number) :
    Holds (kernel.afterPageOut victim number)
      (Function.update outside victim (some (kernel.frame number))) := by
  refine ⟨by simp [Kernel.afterPageOut, holds.bits], fun ref entry located => ?_,
    fun first second one two same => ?_, ?_, fun ref contents stored => ?_,
    fun ref there => ?_, fun key listed => ?_⟩
  · -- `framed`: only the victim has another frame than before, namely none.
    rw [entry_afterPageOut] at located
    split at located
    · obtain ⟨old, -, rfl⟩ := Option.map_eq_some_iff.mp located
      exact .inl rfl
    · exact holds.framed ref entry located
  · -- `apart`: the page tables are the same objects as before.
    rw [isSome_afterPageOut] at one two
    rw [entryAddress_afterPageOut, entryAddress_afterPageOut] at same
    exact holds.apart first second one two same
  · -- `distinct`: the key of the victim is new to the store.
    rw [Kernel.afterPageOut, Map.getKeys_insert, ← List.concat_eq_append]
    exact holds.distinct.concat chosen.unstored
  · -- `absent`: the victim has lost its frame, and the pages that were out have none either.
    rw [InvertedTable.frameOf, entry_afterPageOut]
    by_cases here : ref = victim
    · rw [if_pos here, here, chosen.located]
      rfl
    · rw [Function.update_of_ne here] at stored
      rw [if_neg here]
      exact holds.absent ref contents stored
  · -- `held`: the appended pair answers for the victim, the older ones for every other page.
    rw [isSome_afterPageOut] at there
    rw [entryAddress_afterPageOut, Kernel.afterPageOut, Map.get?_insert]
    by_cases here : ref = victim
    · -- No older pair has the key of the victim, so the lookup reaches the new one.
      rw [here, chosen.missing, if_pos rfl, Function.update_self, Option.none_or]
    · rw [if_neg (holds.apart_ne chosen.present there (Ne.symm here)), Option.or_none,
        Function.update_of_ne here]
      exact holds.held ref there
  · -- `listed`: a key was there before, or it is that of the victim.
    rw [Kernel.afterPageOut, Map.getKeys_insert] at listed
    rcases List.mem_append.mp listed with before | new
    · obtain ⟨ref, contents, stored, same⟩ := holds.listed key before
      refine ⟨ref, contents, ?_, (entryAddress_afterPageOut ..).trans same⟩
      rw [Function.update_of_ne, stored]
      rintro rfl
      -- The victim was not in the store.
      exact chosen.unstored (same ▸ before)
    · obtain rfl := List.mem_singleton.mp new
      exact ⟨victim, kernel.frame number, Function.update_self .., entryAddress_afterPageOut ..⟩

/-- `pageIn` keeps the store in step: the victim takes the place of the page that comes back. -/
theorem Holds.pageIn (holds : Holds kernel outside) (chosen : kernel.Victim victim out number)
    (there : (kernel.invertedTable.entry page).isSome = true) {contents : Page}
    (found : outside page = some contents) :
    Holds (kernel.afterPageIn page victim number contents)
      (Function.update (Function.update outside victim (some (kernel.frame number))) page none) := by
  have differ := holds.victim_ne chosen found
  -- `pageIn` stores the victim just as `pageOut` does, so the rest goes on from there.
  have left := holds.pageOut chosen
  have store := backingStore_afterPageIn kernel page victim number contents
  refine ⟨holds.bits, fun ref entry located => ?_, fun first second one two same => ?_, ?_,
    fun ref bytes stored => ?_, fun ref here => ?_, fun key listed => ?_⟩
  · -- `framed`: the incoming page gets the frame of the victim, and the victim loses it.
    rw [entry_afterPageIn kernel differ] at located
    split at located
    · obtain ⟨old, -, rfl⟩ := Option.map_eq_some_iff.mp located
      exact .inr ⟨number, rfl, chosen.inside⟩
    · split at located
      · obtain ⟨old, -, rfl⟩ := Option.map_eq_some_iff.mp located
        exact .inl rfl
      · exact holds.framed ref entry located
  · -- `apart`: as before.
    rw [isSome_afterPageIn kernel differ] at one two
    rw [entryAddress_afterPageIn, entryAddress_afterPageIn] at same
    exact holds.apart first second one two same
  · -- `distinct`: erasing a key keeps the others different.
    rw [store, Map.getKeys_erase]
    exact left.distinct.erase _
  · by_cases own : ref = page
    · -- `absent`: the incoming page is no longer out.
      rw [own, Function.update_self] at stored
      cases stored
    · -- Every other page that is out, the victim among them, is as `pageOut` left it.
      rw [Function.update_of_ne own] at stored
      have out := left.absent ref bytes stored
      rw [InvertedTable.frameOf, entry_afterPageOut] at out
      rw [InvertedTable.frameOf, entry_afterPageIn kernel differ, if_neg own]
      exact out
  · -- `held`: the key of the incoming page is erased, and it is the key of no other page.
    rw [isSome_afterPageIn kernel differ] at here
    rw [store, entryAddress_afterPageIn, Map.get?_erase _ left.distinct]
    by_cases own : ref = page
    · rw [if_pos (by rw [own]), own, Function.update_self]
    · rw [if_neg (holds.apart_ne here there own), Function.update_of_ne own,
        ← entryAddress_afterPageOut kernel victim ref number]
      exact left.held ref ((isSome_afterPageOut ..).trans here)
  · -- `listed`: a key that is left belongs to a page that is out, which is not the incoming one.
    rw [store, Map.getKeys_erase] at listed
    obtain ⟨apart, listed⟩ := left.distinct.mem_erase_iff.mp listed
    obtain ⟨ref, bytes, stored, same⟩ := left.listed key listed
    refine ⟨ref, bytes, ?_, (entryAddress_afterPageIn ..).trans
      ((entryAddress_afterPageOut kernel victim ref number).symm.trans same)⟩
    rw [Function.update_of_ne, stored]
    rintro rfl
    exact apart (same.symm.trans (entryAddress_afterPageOut ..))

/-- The start holds nothing. -/
theorem ExchangeStart.holds (start : ExchangeStart kernel) : Holds kernel fun _ => none := by
  -- Nothing is out and nothing is stored.
  refine ⟨start.bits, start.framed, start.apart, ?_, by simp, fun ref _ => ?_, ?_⟩
  · rw [start.empty]
    exact List.nodup_nil
  · rw [start.empty]
    rfl
  · rw [start.empty]
    simp [Map.getKeys, Map.empty]

/-- A page in the store is out. -/
theorem Holds.out_of_stored (holds : Holds kernel outside)
    (there : (kernel.invertedTable.entry page).isSome = true)
    (stored : kernel.invertedTable.entryAddress page ∈ kernel.backingStore.getKeys) :
    ∃ contents, outside page = some contents ∧
      kernel.backingStore.get? (kernel.invertedTable.entryAddress page) = some contents := by
  obtain ⟨contents, found⟩ := (Map.mem_getKeys _ _).mp stored
  exact ⟨contents, (holds.held page there).symm.trans found, found⟩

/-- Every permitted step keeps the store in step with the history. -/
theorem Holds.step {action : Exchange} {history : List Swapping}
    (holds : Holds kernel (swappedOut history)) (permitted : Permitted kernel action)
    (stepped : exchange kernel action = .ok after) :
    Holds after (swappedOut (history ++ observeExchange kernel action after)) := by
  rw [swappedOut, List.foldl_append]
  cases action with
  | pageOut victim =>
    -- The store gains the victim, with the bytes of its frame.
    obtain ⟨out, number, chosen⟩ := permitted
    obtain rfl := Except.ok.inj ((chosen.pageOut holds.bits).symm.trans stepped)
    simp only [observeExchange, List.foldl_cons, List.foldl_nil, Swapping.apply, chosen.bytesOf]
    exact holds.pageOut chosen
  | pageIn page victim =>
    -- A page that is in the store is out, with the bytes found there.
    obtain ⟨⟨out, number, chosen⟩, there, stored⟩ := permitted
    obtain ⟨contents, out_, found⟩ := holds.out_of_stored there stored
    obtain rfl := Except.ok.inj ((chosen.pageIn found).symm.trans stepped)
    simp only [observeExchange, List.foldl_cons, List.foldl_nil, Swapping.apply, chosen.bytesOf]
    exact holds.pageIn chosen there out_
  | write number contents =>
    -- Writing to a frame touches neither the page tables nor the store.
    obtain rfl := Except.ok.inj stepped
    exact ⟨holds.bits, holds.framed, holds.apart, holds.distinct, holds.absent, holds.held,
      holds.listed⟩

/-- `pageOut` moves the victim and nothing else. -/
theorem Kernel.Victim.evicts_pageOut (chosen : kernel.Victim victim out number) :
    Evicts kernel (kernel.afterPageOut victim number) victim number [victim] := by
  refine ⟨chosen.frameOf, ?_, ?_, fun other differ => Blocks.block_setBlock_ne _ differ _,
    fun address apart => ?_, fun ref apart => ?_⟩
  · -- The victim has no frame, and its bytes are in the store under its key.
    rw [InvertedTable.frameOf, entry_afterPageOut, if_pos rfl, chosen.located]
    rfl
  · rw [Kernel.afterPageOut, Map.get?_insert, chosen.missing, if_pos rfl, Option.none_or]
  · -- Other keys find what they found, and other entries are as they were.
    rw [Kernel.afterPageOut, Map.get?_insert, if_neg (apart victim List.mem_cons_self),
      Option.or_none]
  · rw [entry_afterPageOut, if_neg (List.mem_singleton.not.mp apart)]

/-- `pageIn` moves the victim and the page that comes back, and nothing else. -/
theorem Holds.evicts_pageIn (holds : Holds kernel outside)
    (chosen : kernel.Victim victim out number)
    (there : (kernel.invertedTable.entry page).isSome = true) {contents : Page}
    (found : outside page = some contents) :
    Evicts kernel (kernel.afterPageIn page victim number contents) victim number [page, victim] ∧
      (kernel.afterPageIn page victim number contents).invertedTable.frameOf page =
        some (number : Int) ∧
      (kernel.afterPageIn page victim number contents).frame number = contents ∧
      kernel.invertedTable.entryAddress page ∉
        (kernel.afterPageIn page victim number contents).backingStore.getKeys := by
  have differ := holds.victim_ne chosen found
  have left := holds.pageOut chosen
  have store := backingStore_afterPageIn kernel page victim number contents
  -- Up to the erased key, the store is the one `pageOut` leaves.
  obtain ⟨had, -, stored, -, pages, -⟩ := chosen.evicts_pageOut
  refine ⟨⟨had, ?_, ?_, fun other differ => Blocks.block_setBlock_ne _ differ _,
    fun address apart => ?_, fun ref apart => ?_⟩, ?_, Blocks.block_setBlock_same _ _ _, ?_⟩
  · -- The victim has lost its frame.
    rw [InvertedTable.frameOf, entry_afterPageIn kernel differ, if_neg differ, if_pos rfl,
      chosen.located]
    rfl
  · -- It is stored under a key of its own, which is not the one that is erased.
    rw [store, Map.get?_erase _ left.distinct,
      if_neg (holds.apart_ne chosen.present there differ), stored]
  · rw [store, Map.get?_erase _ left.distinct, if_neg (apart page List.mem_cons_self).symm]
    exact pages address fun ref member => apart ref (List.mem_cons_of_mem _ member)
  · -- Keys and entries of pages that are not moved are left alone.
    simp only [List.mem_cons, List.not_mem_nil, or_false, not_or] at apart
    rw [entry_afterPageIn kernel differ, if_neg apart.1, if_neg apart.2]
  · obtain ⟨entry, located⟩ := Option.isSome_iff_exists.mp there
    -- The incoming page has the frame of the victim now.
    rw [InvertedTable.frameOf, entry_afterPageIn kernel differ, if_pos rfl, located]
    rfl
  · -- The keys were different, so erasing one leaves no second copy of it.
    rw [store, Map.getKeys_erase]
    exact fun listed => (left.distinct.mem_erase_iff.mp listed).1 rfl

/--
In every run the store holds exactly the pages that are swapped out, with the bytes they left with.

Both operations succeed. A page that comes back has the victim's former frame and its own bytes, the
victim is stored with its bytes, and no other frame, entry or stored page changes.
-/
theorem store_holds_swapped {history : List Swapping}
    (traced : Runs.Traced exchange ExchangeStart Permitted observeExchange kernel history) :
    (kernel.backingStore.getKeys.Nodup ∧ ∀ address, address ∈ kernel.backingStore.getKeys ↔
      ∃ ref contents, swappedOut history ref = some contents ∧
        kernel.invertedTable.entryAddress ref = address) ∧
    (∀ ref contents, swappedOut history ref = some contents →
      kernel.backingStore.get? (kernel.invertedTable.entryAddress ref) = some contents ∧
        kernel.invertedTable.frameOf ref = some noPhysicalPage) ∧
    (∀ victim, Permitted kernel (.pageOut victim) → ∃ after number,
      kernel.pageOut victim = .ok after ∧ Evicts kernel after victim number [victim]) ∧
    ∀ page victim, Permitted kernel (.pageIn page victim) → ∃ after number contents,
      kernel.pageIn page victim = .ok after ∧
        Evicts kernel after victim number [page, victim] ∧
        swappedOut history page = some contents ∧
        after.invertedTable.frameOf page = some (number : Int) ∧
        after.frame number = contents ∧
        kernel.invertedTable.entryAddress page ∉ after.backingStore.getKeys := by
  -- The invariant holds at the start and after every permitted step.
  have holds : Holds kernel (swappedOut history) := by
    refine traced.invariant (fun kernel history => Holds kernel (swappedOut history)) ?_ ?_
    · exact fun kernel (start : ExchangeStart kernel) => start.holds
    · intro before action after history holds permitted stepped
      -- A page that is out is an entry without a frame, so the store answers for its key.
      exact holds.step permitted stepped
  have stored (ref : PageRef) (contents : Page) (out : swappedOut history ref = some contents) :
      kernel.backingStore.get? (kernel.invertedTable.entryAddress ref) = some contents := by
    obtain ⟨entry, located, -⟩ := Option.map_eq_some_iff.mp (holds.absent ref contents out)
    rw [holds.held ref (by rw [located]; rfl), out]
  refine ⟨⟨holds.distinct, fun address => ⟨holds.listed address, ?_⟩⟩,
    fun ref contents out => ⟨stored ref contents out, holds.absent ref contents out⟩,
    -- The keys are those of the pages that are out.
    fun victim => ?_, fun page victim => ?_⟩
  · rintro ⟨ref, contents, out, rfl⟩
    -- `pageOut` of a page that is not protected succeeds and moves this page.
    exact (Map.mem_getKeys _ _).mpr ⟨contents, stored ref contents out⟩
  · rintro ⟨out, number, chosen⟩
    -- `pageIn` finds the bytes the page left with.
    exact ⟨_, number, chosen.pageOut holds.bits, chosen.evicts_pageOut⟩
  · rintro ⟨⟨out, number, chosen⟩, there, listed⟩
    obtain ⟨contents, out_, found⟩ := holds.out_of_stored there listed
    obtain ⟨evicts, frame, bytes, gone⟩ := holds.evicts_pageIn chosen there out_
    exact ⟨_, number, contents, chosen.pageIn found, evicts, out_, frame, bytes, gone⟩

/-- Thread 1 has two pages, in frames 3 and 4. -/
def twoResident : Kernel := { firstKernel with
  invertedTable := Map.empty.insert 1
    ⟨[⟨0, 3, true, false, true, true⟩, ⟨1, 4, true, false, true, true⟩], 1000, wideProgram⟩ }

/-- The entries of the two pages are distinct objects. -/
theorem twoResident_start : ExchangeStart twoResident := by
  have located (ref : PageRef) (there : (twoResident.invertedTable.entry ref).isSome = true) :
      ref.thread = 1 ∧ ref.page < 2 := by
    obtain ⟨thread, page⟩ := ref
    simp only [twoResident, InvertedTable.entry, Map.get?_insert, Map.get?_empty,
      Option.none_or] at there
    by_cases same : 1 = thread
    · simp only [same, if_true, Option.bind_some] at there
      obtain ⟨entry, found⟩ := Option.isSome_iff_exists.mp there
      obtain ⟨inside, -⟩ := List.getElem?_eq_some_iff.mp found
      exact ⟨same.symm, inside⟩
    · simp [same] at there
  refine ⟨rfl, fun ref entry there => ?_, fun first second one two same => ?_, rfl⟩
  · obtain ⟨thread, page⟩ := ref
    obtain ⟨mine, inside⟩ := located ⟨thread, page⟩ (by rw [there]; rfl)
    simp only at mine inside
    subst mine
    have either : page = 0 ∨ page = 1 := by omega
    rcases either with rfl | rfl
    · obtain rfl := Option.some.inj there
      exact .inr ⟨3, rfl, by decide⟩
    · obtain rfl := Option.some.inj there
      exact .inr ⟨4, rfl, by decide⟩
  · obtain ⟨thread, page⟩ := first
    obtain ⟨other, later⟩ := second
    obtain ⟨rfl, -⟩ := located _ one
    obtain ⟨rfl, -⟩ := located _ two
    have pages : (1000 : Nat) + page = 1000 + later := same
    rw [Nat.add_left_cancel pages]

/-- The first page is swapped out, and can be exchanged with the second one then. -/
theorem store_holds_swapped_one : ∃ after number contents,
    (twoResident.afterPageOut ⟨1, 0⟩ 3).pageIn ⟨1, 0⟩ ⟨1, 1⟩ = .ok after ∧
      after.invertedTable.frameOf ⟨1, 0⟩ = some ((number : Nat) : Int) ∧
      after.frame number = contents ∧
      swappedOut [.out ⟨1, 0⟩ (twoResident.bytesOf ⟨1, 0⟩)] ⟨1, 0⟩ = some contents := by
  have chosen : twoResident.Victim ⟨1, 0⟩ ⟨0, 3, true, false, true, true⟩ 3 :=
    ⟨rfl, rfl, by decide, rfl, by decide⟩
  have started : Runs.Traced exchange ExchangeStart Permitted observeExchange twoResident [] :=
    .start twoResident_start
  have permitted : Permitted twoResident (.pageOut ⟨1, 0⟩) := ⟨_, _, chosen⟩
  have stepped : exchange twoResident (.pageOut ⟨1, 0⟩) =
      .ok (twoResident.afterPageOut ⟨1, 0⟩ 3) :=
    chosen.pageOut twoResident_start.bits
  have traced := started.next permitted stepped
  obtain ⟨after, number, contents, swapped, -, out, frame, bytes, -⟩ :=
    (store_holds_swapped traced).2.2.2 ⟨1, 0⟩ ⟨1, 1⟩
      ⟨⟨⟨1, 4, true, false, true, true⟩, 4, rfl, rfl, by decide, rfl, by decide⟩, rfl, by decide⟩
  exact ⟨after, number, contents, swapped, frame, bytes, out⟩

end Nachos.Vm
