import Nachos.Machine.UserBytes
import Nachos.Userprog.Loading
import Mathlib.Data.Fintype.Card

/-! The bytes of the running program in the linear build, as the kernel reaches them. -/

namespace Nachos.Userprog

/-- In the linear build a reference succeeds at once or ends in an `ASSERT`. -/
def userBytes : UserBytes Kernel where
  load kernel addr :=
    match kernel.running with
    | none => .error .disabled
    | some (thread, space) =>
      match readMem (.pageTable space.pageTable) kernel.mainMemory addr 1 with
      -- There is no second turn, since no exception is handled.
      | .error _ => .error .assertion
      | .ok (value, table) => .ok (value, kernel.withTable thread space table)
  store kernel addr value := step kernel (.store addr 1 value)

/-- A page table as the constructors fill it: every page has a frame that no other page has. -/
structure Whole (table : List TranslationEntry) : Prop where
  present : ∀ page, page < table.length → ∃ entry, Present table page entry
  apart : ∀ page other, page < table.length → other < table.length →
    frameIn table page = frameIn table other → page = other

/-- The byte the running program sees at an address. -/
def Kernel.byteAt (kernel : Kernel) (address : Nat) : Option Byte :=
  match kernel.running with
  | none => none
  | some (_, space) =>
    if address < space.pageTable.length * pageSize then
      some (Blocks.placed pageSize (frameIn space.pageTable) kernel.mainMemory address)
    else none

/-- A program with a page table as the constructors fill it is running. -/
def AtEase (kernel : Kernel) : Prop :=
  ∃ thread space, kernel.running = some (thread, space) ∧ Whole space.pageTable

section Touched

variable {table : List TranslationEntry} (vpn : Nat) (writing : Bool)

/-- A reference does not move any page. -/
theorem frameIn_touched : frameIn (table.modify vpn (·.touch writing)) = frameIn table := by
  funext page
  rw [frameIn, frameIn, List.getElem?_modify]
  -- A page behind the table has frame 0 before and after.
  cases table[page]? with
  | none => rfl
  | some entry =>
    by_cases same : vpn = page
    · simp [same]
    · simp [same]

/-- A reference leaves the table as the constructors fill it. -/
theorem Whole.touched (whole : Whole table) : Whole (table.modify vpn (·.touch writing)) := by
  refine ⟨fun page inside => ?_, ?_⟩
  · rw [List.length_modify] at inside
    obtain ⟨entry, here⟩ := whole.present page inside
    -- Only the use and the dirty bit of the entry may have been set.
    refine ⟨if vpn = page then entry.touch writing else entry, ?_, ?_, ?_, ?_, ?_⟩
    · simp only [List.getElem?_modify, here.located]
      split <;> rfl
    · split
      · exact here.valid
      · exact here.valid
    · split
      · exact here.writable
      · exact here.writable
    · rw [frameIn_touched]
      split
      · exact here.framed
      · exact here.framed
    · rw [frameIn_touched]
      exact here.inside
  · -- The frames are those of before, so they are still different.
    rw [frameIn_touched, List.length_modify]
    exact whole.apart

end Touched

section References

variable {kernel : Kernel} {thread : Thread} {space : AddrSpace} {addr : BitVec 32}

/-- The running thread keeps running when its page table changes. -/
theorem Kernel.running_withTable (running : kernel.running = some (thread, space))
    (table : TranslationTable) :
    (kernel.withTable thread space table).running =
      some (thread, { space with pageTable := table.entries }) := by
  obtain ⟨current, -⟩ := Kernel.running_eq_some.mp running
  rw [Kernel.running_eq_some]
  exact ⟨current, by simp [withTable, setSpace]⟩

/-- An address whose byte can be seen is translated to the place of that byte. -/
theorem Whole.translate (whole : Whole space.pageTable) (writing : Bool)
    (inside : virtualPageNumber addr < space.pageTable.length) :
    translate (.pageTable space.pageTable) addr 1 writing =
      .ok (frameIn space.pageTable (virtualPageNumber addr) * pageSize + pageOffset addr,
        .pageTable (space.pageTable.modify (virtualPageNumber addr) (·.touch writing))) := by
  -- The page has a valid entry that may be written, so nothing stops the translation.
  obtain ⟨entry, present⟩ := whole.present _ inside
  have hit : Translated (.pageTable space.pageTable) addr 1 writing (virtualPageNumber addr) entry
      (frameIn space.pageTable (virtualPageNumber addr)) :=
    ⟨by simp [misaligned], by simp [findEntry, present.located, present.valid], present.located,
      by simp [present.writable], present.framed, present.inside⟩
  exact translate_of_translated hit (.inl rfl)

/-- What the running program sees is in the frames of its pages. -/
theorem Kernel.byteAt_eq (running : kernel.running = some (thread, space)) (address : Nat) :
    kernel.byteAt address = if address < space.pageTable.length * pageSize then
      some (Blocks.placed pageSize (frameIn space.pageTable) kernel.mainMemory address)
    else none := by
  rw [byteAt, running]

/-- A byte that is seen is seen in a page of the table. -/
theorem Kernel.of_byteAt {byte : Byte} (running : kernel.running = some (thread, space))
    (seen : kernel.byteAt addr.toNat = some byte) :
    virtualPageNumber addr < space.pageTable.length ∧
      kernel.mainMemory (frameIn space.pageTable (virtualPageNumber addr) * pageSize +
        pageOffset addr) = byte := by
  rw [Kernel.byteAt_eq running] at seen
  split at seen
  · -- The address is in front of the end of the last page, so its page is in the table.
    rename_i small
    exact ⟨Nat.div_lt_of_lt_mul (by rwa [Nat.mul_comm] at small), Option.some.inj seen⟩
  · cases seen

/-- In the linear build the kernel reaches the bytes that the running program sees. -/
theorem userBytes_lawful : userBytes.Lawful AtEase (fun _ => True) Kernel.byteAt := by
  refine ⟨?_, ?_⟩
  · -- A load reads the cell that is seen and sets a use bit.
    rintro kernel addr byte ⟨thread, space, running, whole⟩ - seen
    obtain ⟨inside, held⟩ := Kernel.of_byteAt running seen
    have read : readMem (.pageTable space.pageTable) kernel.mainMemory addr 1 =
        .ok (byte.signExtend 32,
          .pageTable (space.pageTable.modify (virtualPageNumber addr) (·.touch false))) := by
      rw [readMem, whole.translate false inside, ← held]
      rfl
    have after := Kernel.running_withTable running
      (.pageTable (space.pageTable.modify (virtualPageNumber addr) (·.touch false)))
    -- The bits of an entry are no part of what the program sees.
    refine ⟨_, ?_, ⟨thread, _, after, whole.touched _ _⟩, ?_⟩
    · simp only [userBytes, running, read]
    · funext address
      rw [Kernel.byteAt_eq after, Kernel.byteAt_eq running]
      simp only [TranslationTable.entries, frameIn_touched, List.length_modify]
      rfl
  · -- A store writes the cell that is seen and sets a dirty bit.
    rintro kernel addr old value ⟨thread, space, running, whole⟩ - seen
    obtain ⟨inside, -⟩ := Kernel.of_byteAt running seen
    have written : writeMem (.pageTable space.pageTable) kernel.mainMemory addr 1 value =
        .ok (Blocks.setCells kernel.mainMemory (frameIn space.pageTable (virtualPageNumber addr) *
            pageSize + pageOffset addr) [value.extractLsb' 0 8],
          .pageTable (space.pageTable.modify (virtualPageNumber addr) (·.touch true))) := by
      rw [writeMem, whole.translate true inside]
      rfl
    have after : Kernel.running { kernel.withTable thread space (.pageTable
        (space.pageTable.modify (virtualPageNumber addr) (·.touch true))) with
          mainMemory := Blocks.setCells kernel.mainMemory (frameIn space.pageTable
            (virtualPageNumber addr) * pageSize + pageOffset addr) [value.extractLsb' 0 8] } =
        some (thread, { space with
          pageTable := space.pageTable.modify (virtualPageNumber addr) (·.touch true) }) :=
      Kernel.running_withTable running (.pageTable _)
    refine ⟨_, ?_, ⟨thread, _, after, whole.touched _ _⟩, ?_⟩
    · simp only [userBytes, step, running, written]
    · have low : value.extractLsb' 0 8 = value.setWidth 8 := by
        apply BitVec.eq_of_toNat_eq
        simp
      have place := toNat_eq_page_offset addr
      have fits : pageOffset addr < pageSize := Nat.mod_lt _ (by decide)
      funext address
      rw [Kernel.byteAt_eq after, frameIn_touched, List.length_modify, Blocks.setCells_singleton,
        Kernel.byteAt_eq running, place]
      -- Each page has a frame of its own, so the written cell belongs to this address only.
      by_cases small : address < space.pageTable.length * pageSize
      · rw [if_pos small, if_pos small, Blocks.placed_setCells whole.apart _ inside fits small,
          Blocks.setCells_singleton, low]
        split <;> rfl
      · -- The address that was written lies in the table, so it is not one of those behind it.
        have within : virtualPageNumber addr * pageSize + pageOffset addr <
            space.pageTable.length * pageSize := by
          have next := Nat.mul_le_mul_right pageSize inside
          rw [Nat.succ_mul] at next
          omega
        rw [if_neg small, if_neg small, if_neg (by omega)]

/-- Pages with frames of their own are no more than there are frames. -/
theorem Whole.length_le {table : List TranslationEntry} (whole : Whole table) :
    table.length ≤ numPhysPages := by
  have inside (page : Fin table.length) : frameIn table page < numPhysPages := by
    obtain ⟨entry, present⟩ := whole.present page page.isLt
    exact present.inside
  -- Taking the page to its frame is injective into the frames.
  have apart : Function.Injective fun page : Fin table.length =>
      (⟨frameIn table page, inside page⟩ : Fin numPhysPages) := by
    intro page other same
    exact Fin.ext (whole.apart page other page.isLt other.isLt (congrArg Fin.val same))
  simpa using Fintype.card_le_of_injective _ apart

/-- Addresses whose bytes are seen are far below the end of the range of `int`. -/
theorem AtEase.address_lt (ease : AtEase kernel) {address : Nat}
    (seen : (kernel.byteAt address).isSome = true) : address < memorySize := by
  obtain ⟨thread, space, running, whole⟩ := ease
  rw [Kernel.byteAt_eq running] at seen
  -- An address that is seen lies in one of at most so many pages as there are frames.
  split at seen
  · rename_i small
    exact Nat.lt_of_lt_of_le small (Nat.mul_le_mul_right _ whole.length_le)
  · cases seen

/-- A program that was just loaded is such a program. -/
theorem atEase_of_exec {before after : Kernel} {file : Executable}
    (bits : before.physicalPageMap.numBits = numPhysPages)
    (done : step before (.exec thread file) = .ok after) :
    AtEase after ∧ ∀ address, address < file.numPages * pageSize →
      (after.byteAt address).isSome = true := by
  simp only [step] at done
  -- Only a thread without an address space can be given one.
  cases absent : before.space thread with
  | some space => simp [absent] at done
  | none =>
    simp only [absent] at done
    obtain ⟨⟨space, loaded⟩, loading, done⟩ := Runs.bind_eq_ok.mp done
    simp only [Pure.pure, Except.pure, Except.ok.injEq] at done
    subst done
    have running : Kernel.running { loaded.setSpace thread (some space) with
        currentThread := some thread } = some (thread, space) :=
      Kernel.running_eq_some.mpr ⟨rfl, by simp [Kernel.setSpace]⟩
    unfold Kernel.loadExecutable at loading
    dsimp only at loading
    split at loading
    · -- The loader has filled the table with frames of its own before it reads the file.
      obtain ⟨⟨table, middle⟩, filled, loading⟩ := Runs.bind_eq_ok.mp loading
      obtain ⟨memory, -, loading⟩ := Runs.bind_eq_ok.mp loading
      simp only [Pure.pure, Except.pure, Except.ok.injEq, Prod.mk.injEq] at loading
      obtain ⟨rfl, rfl⟩ := loading
      obtain ⟨length, mapped, present, -⟩ := Kernel.fillTable_mapped bits filled
      refine ⟨⟨thread, _, running, fun page inside => present page (length ▸ inside),
        mapped.apart⟩, ?_⟩
      intro address small
      rw [Kernel.byteAt_eq running, length, if_pos small]
      rfl
    · simp at loading

end References

/-- The short program can be loaded into the first kernel. -/
theorem exec_shortProgram : ∃ kernel, step firstKernel (.exec 1 shortProgram) = .ok kernel ∧
    AtEase kernel ∧ ∀ address, address < 9 * pageSize → (kernel.byteAt address).isSome = true := by
  have succeeds : (step firstKernel (.exec 1 shortProgram)).isOk = true := by decide +kernel
  -- The loader accepts the program, so there is a kernel behind it.
  cases loaded : step firstKernel (.exec 1 shortProgram) with
  | error fault => simp [loaded, Except.isOk, Except.toBool] at succeeds
  | ok kernel =>
    obtain ⟨ease, seen⟩ := atEase_of_exec (by decide) loaded
    have pages : shortProgram.numPages = 9 := by decide
    exact ⟨kernel, rfl, ease, pages ▸ seen⟩

end Nachos.Userprog
