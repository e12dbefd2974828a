import Nachos.Lib.Runs
import Nachos.Machine.TranslateLaws

/-! How the kernel copies bytes out of and into the memory of the running program. -/

namespace Nachos

/-- The references of the kernel to single bytes, each one repeated until it succeeds. -/
structure UserBytes (σ : Type) where
  /-- `while (!machine->ReadMem(addr, 1, &value));` -/
  load : σ → BitVec 32 → Except Fault (BitVec 32 × σ)
  /-- `while (!machine->WriteMem(addr, 1, value));` -/
  store : σ → BitVec 32 → BitVec 32 → Except Fault σ

/-- How often the body of `for (i = addr; i < addr + bytes; ++i)` is run. -/
def turns (addr bytes : BitVec 32) : Nat := ((addr + bytes).toInt - addr.toInt).toNat

namespace UserBytes

section Helpers

variable {σ : Type} (user : UserBytes σ)

/-- The loop of `ReadMem`, which is left behind the first byte that is zero. -/
def readLoop : Nat → σ → BitVec 32 → Nat → List Byte → Except Fault (List Byte × σ)
  | 0, state, _, _, dest => .ok (dest, state)
  | turns + 1, state, addr, count, dest => do
    let (value, state) ← user.load state addr
    -- The byte comes back as an `int`, of which the buffer keeps the low 8 bits.
    let byte : Byte := value.setWidth 8
    let dest := dest.set count byte
    if byte = 0 then return (dest, state)
    else readLoop turns state (addr + 1) (count + 1) dest

/-- The kernel's `ReadMem`: the buffer it fills. -/
def readMem (state : σ) (addr bytes : BitVec 32) : Except Fault (List Byte × σ) :=
  -- `memset` takes a negative number of bytes for a huge one.
  if bytes.toInt < 0 then .error (.wildAccess bytes.toInt)
  else user.readLoop (turns addr bytes) state addr 0 (List.replicate bytes.toNat 0)

/-- The loop of `WriteMem`. A byte of the buffer is a signed `char`. -/
def writeLoop (src : List Byte) : Nat → σ → BitVec 32 → Nat → Except Fault σ
  | 0, state, _, _ => .ok state
  -- The loop reads its buffer without asking how long it is.
  | turns + 1, state, addr, count =>
    match src[count]? with
    | none => .error (.wildAccess count)
    | some byte => do
      let state ← user.store state addr (byte.signExtend 32)
      writeLoop src turns state (addr + 1) (count + 1)

/-- The kernel's `WriteMem`. -/
def writeMem (state : σ) (addr bytes : BitVec 32) (src : List Byte) : Except Fault σ :=
  user.writeLoop src (turns addr bytes) state addr 0

end Helpers

/-- Within their reach, the references find the bytes that a program sees, and change no others. -/
structure Lawful {σ : Type} (user : UserBytes σ) (Good : σ → Prop) (reach : Nat → Prop)
    (view : σ → Nat → Option Byte) : Prop where
  load : ∀ {state addr byte}, Good state → reach addr.toNat → view state addr.toNat = some byte →
    ∃ after, user.load state addr = .ok (byte.signExtend 32, after) ∧ Good after ∧
      view after = view state
  store : ∀ {state addr old} (value : BitVec 32), Good state → reach addr.toNat →
    view state addr.toNat = some old →
    ∃ after, user.store state addr value = .ok after ∧ Good after ∧
      view after = Blocks.setCells (view state) addr.toNat [some (value.setWidth 8)]

/-- The loops can count so many bytes from an address on: `int` has their number and their end. -/
structure Spans (addr : BitVec 32) (count : Nat) : Prop where
  number : count < 2 ^ 31
  sum : addr.toInt + count < 2 ^ 31
  /-- The bytes end with the last address at most. -/
  range : addr.toNat + count ≤ 2 ^ 32

/-- What `ReadMem` brings of some bytes: zeros from the first zero on. -/
def untilZero : List Byte → List Byte
  | [] => []
  | byte :: rest => if byte = 0 then List.replicate (rest.length + 1) 0 else byte :: untilZero rest

/-- Nothing is lost exactly when only zeros follow the first zero. -/
theorem untilZero_eq_self (bytes : List Byte) :
    untilZero bytes = bytes ↔ ∀ byte ∈ bytes.dropWhile (· ≠ 0), byte = 0 := by
  induction bytes with
  | nil => simp [untilZero]
  | cons byte rest ih =>
    by_cases zero : byte = 0
    · subst zero
      -- From a zero on, the buffer holds what `memset` left, so the rest has to be zeros too.
      rw [untilZero, if_pos rfl, eq_comm, List.eq_replicate_iff]
      simp
    · -- In front of the first zero a byte comes back as it is.
      rw [untilZero, if_neg zero, List.cons.injEq, List.dropWhile_cons_of_pos (by simpa using zero),
        ← ih]
      exact and_iff_right rfl

/-- The loops run once for each byte while no `int` overflows. -/
theorem turns_eq {addr : BitVec 32} {count : Nat} (number : count < 2 ^ 31)
    (sum : addr.toInt + count < 2 ^ 31) : turns addr (BitVec.ofNat 32 count) = count := by
  have low := addr.le_toInt
  -- Both ends are taken as signed numbers, and their sum could wrap.
  rw [turns, BitVec.toInt_add, BitVec.toInt_ofNat', Int.add_bmod_bmod, Int.bmod_def]
  omega

/-- The loops can count a range that lies in the lower half of the addresses. -/
theorem spans_of_lt {addr : BitVec 32} {count : Nat} (fits : addr.toNat + count < 2 ^ 31) :
    Spans addr count := by
  have start := BitVec.toInt_eq_toNat_bmod addr
  -- In the lower half an address is the same with and without a sign.
  rw [Int.bmod_def] at start
  exact ⟨by omega, by omega, by omega⟩

/-- The next address, in front of the end of all addresses. -/
theorem succ_toNat {addr : BitVec 32} (inside : addr.toNat + 1 < 2 ^ 32) :
    (addr + 1).toNat = addr.toNat + 1 := by
  rw [show (addr + 1).toNat = (addr.toNat + 1) % 2 ^ 32 from rfl]
  omega

/-- Behind the last address the next one is the first, so it is never further on. -/
theorem succ_toNat_le (addr : BitVec 32) : (addr + 1).toNat ≤ addr.toNat + 1 :=
  Nat.mod_le (addr.toNat + 1) (2 ^ 32)

/-- A `char` that becomes an `int` and a `char` again is unchanged. -/
theorem setWidth_signExtend (byte : Byte) : (byte.signExtend 32).setWidth 8 = byte := by
  -- The low 8 bits of an extended byte are its own bits.
  apply BitVec.eq_of_getLsbD_eq
  intro bit inside
  simp only [BitVec.getLsbD_setWidth, BitVec.getLsbD_signExtend, inside, if_true, decide_true,
    Bool.true_and]
  simp [show bit < 32 by omega]

section Lawful

variable {σ : Type} {user : UserBytes σ} {Good : σ → Prop} {reach : Nat → Prop}
  {view : σ → Nat → Option Byte}

/-- The loop of `WriteMem` puts the rest of its buffer where the program sees it. -/
theorem Lawful.writeLoop (lawful : Lawful user Good reach view) (rest : List Byte) :
    ∀ (done : List Byte) (state : σ) (addr : BitVec 32), Good state →
      (∀ offset, offset < rest.length → reach (addr.toNat + offset)) →
      (∀ offset, offset < rest.length → (view state (addr.toNat + offset)).isSome = true) →
      addr.toNat + rest.length ≤ 2 ^ 32 →
      ∃ after, user.writeLoop (done ++ rest) rest.length state addr done.length = .ok after ∧
        Good after ∧
        view after = Blocks.setCells (view state) addr.toNat (rest.map some) := by
  induction rest with
  -- Nothing is left to write.
  | nil =>
    intro done state addr good _ _ _
    exact ⟨state, rfl, good, by rw [List.map_nil, Blocks.setCells_nil]⟩
  | cons byte rest ih =>
    intro done state addr good reached mapped fits
    rw [List.length_cons] at fits
    -- The first byte of the rest is written, and the program sees it at its address.
    obtain ⟨old, there⟩ := Option.isSome_iff_exists.mp (mapped 0 (Nat.succ_pos _))
    obtain ⟨middle, stored, good', written⟩ :=
      lawful.store (byte.signExtend 32) good (reached 0 (Nat.succ_pos _)) there
    rw [setWidth_signExtend] at written
    -- While there are bytes left, the next address is one more.
    have next (offset : Nat) (inside : offset < rest.length) :
        (addr + 1).toNat + offset = addr.toNat + (offset + 1) := by
      rw [@succ_toNat addr (by omega)]
      omega
    obtain ⟨after, done', good'', written'⟩ := ih (done ++ [byte]) middle (addr + 1) good'
      (by
        intro offset inside
        rw [next offset inside]
        exact reached (offset + 1) (Nat.succ_lt_succ inside))
      (by
        intro offset inside
        -- The byte just written does not hide the addresses that are still to come.
        rw [written, next offset inside,
          Blocks.setCells_outside _ (.inr (by simp only [List.length_singleton]; omega))]
        exact mapped (offset + 1) (Nat.succ_lt_succ inside))
      (by
        have := succ_toNat_le addr
        omega)
    refine ⟨after, ?_, good'', ?_⟩
    · have here : (done ++ byte :: rest)[done.length]? = some byte := by simp
      rw [List.length_cons, UserBytes.writeLoop, here]
      refine Runs.bind_eq_ok.mpr ⟨middle, stored, ?_⟩
      rwa [List.append_assoc, List.length_append, List.singleton_append] at done'
    · -- Writing one cell and then those behind it is writing them all.
      have behind : Blocks.setCells (view middle) (addr + 1).toNat (rest.map some) =
          Blocks.setCells (view middle) (addr.toNat + 1) (rest.map some) := by
        cases rest with
        | nil => rw [List.map_nil, Blocks.setCells_nil, Blocks.setCells_nil]
        | cons => rw [show (addr + 1).toNat = addr.toNat + 1 from next 0 (Nat.succ_pos _)]
      rw [written', behind, written, Blocks.setCells_cons, List.map_cons]

/-- The loop of `ReadMem` goes on as long as the next load brings the next byte. -/
theorem readLoop_of_next {Next : σ → BitVec 32 → List Byte → Prop}
    (next : ∀ {state addr byte rest}, Next state addr (byte :: rest) →
      ∃ value after, user.load state addr = .ok (value, after) ∧ value.setWidth 8 = byte ∧
        Next after (addr + 1) rest) (rest : List Byte) :
    ∀ (done : List Byte) (state : σ) (addr : BitVec 32), Next state addr rest →
      ∃ after, user.readLoop rest.length state addr done.length
          (done ++ List.replicate rest.length 0) = .ok (done ++ untilZero rest, after) ∧
        ∃ addr' rest', Next after addr' rest' := by
  induction rest with
  -- The buffer is full.
  | nil => exact fun done state addr last => ⟨state, rfl, addr, [], last⟩
  | cons byte rest ih =>
    intro done state addr here
    -- The byte at the address is loaded and put into the next cell of the buffer.
    obtain ⟨value, middle, loaded, rfl, later⟩ := next here
    have buffer : (done ++ List.replicate (rest.length + 1) 0).set done.length
        (value.setWidth 8) = done ++ value.setWidth 8 :: List.replicate rest.length 0 := by
      rw [List.set_append_right _ _ (Nat.le_refl _), Nat.sub_self, List.replicate_succ,
        List.set_cons_zero]
    rw [List.length_cons, UserBytes.readLoop, loaded, Runs.ok_bind]
    simp only [buffer, untilZero]
    by_cases zero : (value.setWidth 8 : Byte) = 0
    · -- The loop ends behind a zero, and what follows in the buffer are the zeros of `memset`.
      rw [if_pos zero, if_pos zero, zero, List.replicate_succ]
      exact ⟨middle, rfl, addr + 1, rest, later⟩
    · -- The loop goes on with the next address and one cell more filled.
      rw [if_neg zero, if_neg zero]
      obtain ⟨after, done', last⟩ := ih (done ++ [value.setWidth 8]) middle (addr + 1) later
      refine ⟨after, ?_, last⟩
      rwa [List.append_assoc, List.append_assoc, List.length_append, List.singleton_append] at done'

/-- A state of which the program sees these bytes from an address on. -/
structure Sees (Good : σ → Prop) (reach : Nat → Prop) (view : σ → Nat → Option Byte)
    (seen : Nat → Option Byte) (state : σ) (addr : BitVec 32) (rest : List Byte) : Prop where
  good : Good state
  same : view state = seen
  reached : ∀ offset, offset < rest.length → reach (addr.toNat + offset)
  held : ∀ offset byte, rest[offset]? = some byte → seen (addr.toNat + offset) = some byte
  fits : addr.toNat + rest.length ≤ 2 ^ 32

/-- The next load brings the next byte that is seen. -/
theorem Lawful.next (lawful : Lawful user Good reach view) {seen : Nat → Option Byte} {state : σ}
    {addr : BitVec 32} {byte : Byte} {rest : List Byte}
    (sees : Sees Good reach view seen state addr (byte :: rest)) :
    ∃ value after, user.load state addr = .ok (value, after) ∧ value.setWidth 8 = byte ∧
      Sees Good reach view seen after (addr + 1) rest := by
  obtain ⟨good, same, reached, held, fits⟩ := sees
  rw [List.length_cons] at fits
  obtain ⟨after, loaded, good', same'⟩ :=
    lawful.load good (reached 0 (Nat.succ_pos _)) (by rw [same]; exact held 0 byte rfl)
  -- While there are bytes left, they begin one address further on.
  have next (offset : Nat) (inside : offset < rest.length) :
      (addr + 1).toNat + offset = addr.toNat + (offset + 1) := by
    rw [@succ_toNat addr (by omega)]
    omega
  refine ⟨_, after, loaded, setWidth_signExtend byte, good', same'.trans same, ?_, ?_, ?_⟩
  -- What is known of the other bytes is known of them from the next address on.
  · intro offset inside
    rw [next offset inside]
    exact reached (offset + 1) (Nat.succ_lt_succ inside)
  · intro offset later found
    obtain ⟨inside, -⟩ := List.getElem?_eq_some_iff.mp found
    rw [next offset inside]
    exact held (offset + 1) later found
  · have := succ_toNat_le addr
    omega

/-- The loop of `ReadMem` puts behind its buffer what it brings of the rest of the range. -/
theorem Lawful.readLoop (lawful : Lawful user Good reach view) (rest : List Byte)
    (done : List Byte) (state : σ) (addr : BitVec 32) (good : Good state)
    (reached : ∀ offset, offset < rest.length → reach (addr.toNat + offset))
    (held : ∀ offset byte, rest[offset]? = some byte →
      view state (addr.toNat + offset) = some byte)
    (fits : addr.toNat + rest.length ≤ 2 ^ 32) :
    ∃ after, user.readLoop rest.length state addr done.length
        (done ++ List.replicate rest.length 0) = .ok (done ++ untilZero rest, after) ∧
      Good after ∧ view after = view state := by
  -- Each load keeps what is seen of the rest, so the loop brings all of it.
  obtain ⟨after, read, addr', rest', last⟩ :=
    readLoop_of_next (fun sees => lawful.next sees) rest done state addr
      (⟨good, rfl, reached, held, fits⟩ : Sees Good reach view (view state) state addr rest)
  exact ⟨after, read, last.good, last.same⟩

/-- Bytes that were copied out are copied in again up to the first zero, and nothing else changes. -/
theorem Lawful.readMem_writeMem (lawful : Lawful user Good reach view) {state : σ}
    {addr : BitVec 32} {bytes : List Byte} (good : Good state)
    (reached : ∀ offset, offset < bytes.length → reach (addr.toNat + offset))
    (mapped : ∀ offset, offset < bytes.length →
      (view state (addr.toNat + offset)).isSome = true)
    (spans : Spans addr bytes.length) :
    ∃ middle after, user.writeMem state addr (BitVec.ofNat 32 bytes.length) bytes = .ok middle ∧
      user.readMem middle addr (BitVec.ofNat 32 bytes.length) = .ok (untilZero bytes, after) ∧
      Good after ∧ view after = Blocks.setCells (view state) addr.toNat (bytes.map some) := by
  have turned := turns_eq spans.number spans.sum
  -- `WriteMem` runs first, and `ReadMem` starts where it left the memory.
  obtain ⟨middle, written, good', holds⟩ :=
    lawful.writeLoop bytes [] state addr good reached mapped spans.range
  obtain ⟨after, read, good'', same⟩ := lawful.readLoop bytes [] middle addr good' reached
    (by
      -- At its own addresses the program sees what has just been written.
      intro offset byte found
      rw [holds]
      exact Blocks.setCells_inside _ _ (by rw [List.getElem?_map, found]; rfl))
    spans.range
  -- The number of bytes is small, so it is the same with and without a sign.
  have number := spans.number
  have length : (BitVec.ofNat 32 bytes.length).toInt = bytes.length := by
    rw [BitVec.toInt_ofNat', Int.bmod_def]
    omega
  have size : (BitVec.ofNat 32 bytes.length).toNat = bytes.length := by
    rw [BitVec.toNat_ofNat]
    omega
  refine ⟨middle, after, ?_, ?_, good'', same.trans holds⟩
  · -- `WriteMem` runs its loop once for each byte.
    rw [UserBytes.writeMem, turned]
    exact written
  · -- So does `ReadMem`, with a buffer of this length.
    rw [UserBytes.readMem, turned, length, if_neg (by omega), size]
    exact read

/-- `ReadMem` gives back what `WriteMem` was given, and the program sees no other change. -/
def CopiesBack (user : UserBytes σ) (view : σ → Nat → Option Byte) (state : σ) (addr : BitVec 32)
    (bytes : List Byte) : Prop :=
  ∃ middle after, user.writeMem state addr (BitVec.ofNat 32 bytes.length) bytes = .ok middle ∧
    user.readMem middle addr (BitVec.ofNat 32 bytes.length) = .ok (bytes, after) ∧
    view after = Blocks.setCells (view state) addr.toNat (bytes.map some)

/-- Nothing at all is copied by both loops. -/
theorem copiesBack_nil (user : UserBytes σ) (view : σ → Nat → Option Byte) (state : σ)
    (addr : BitVec 32) : CopiesBack user view state addr [] := by
  have turned : turns addr (BitVec.ofNat 32 0) = 0 := by simp [turns]
  refine ⟨state, state, ?_, ?_, ?_⟩
  · rw [List.length_nil, UserBytes.writeMem, turned]
    rfl
  · rw [List.length_nil, UserBytes.readMem, turned]
    rfl
  · rw [List.map_nil, Blocks.setCells_nil]

/-- A round trip succeeds exactly when only zeros follow the first zero. -/
theorem Lawful.copiesBack_exact (lawful : Lawful user Good reach view) {state : σ}
    {addr : BitVec 32} {bytes : List Byte} (good : Good state)
    (reached : ∀ offset, offset < bytes.length → reach (addr.toNat + offset))
    (mapped : ∀ offset, offset < bytes.length →
      (view state (addr.toNat + offset)).isSome = true)
    (spans : bytes ≠ [] → Spans addr bytes.length) :
    CopiesBack user view state addr bytes ↔ ∀ byte ∈ bytes.dropWhile (· ≠ 0), byte = 0 := by
  -- Without bytes neither loop looks at memory, so nothing has to be mapped.
  by_cases none : bytes = []
  · subst none
    exact iff_of_true (copiesBack_nil user view state addr) (by simp)
  obtain ⟨middle, after, written, read, -, same⟩ :=
    lawful.readMem_writeMem good reached mapped (spans none)
  -- What comes back is the part of the bytes up to the first zero.
  rw [← untilZero_eq_self]
  constructor
  · rintro ⟨middle', after', written', read', -⟩
    rw [written, Except.ok.injEq] at written'
    rw [← written', read, Except.ok.injEq, Prod.mk.injEq] at read'
    exact read'.1
  · intro kept
    rw [kept] at read
    exact ⟨middle, after, written, read, same⟩

end Lawful

end UserBytes

end Nachos
