import Nachos.Syscall.Handlers
import Nachos.Vm.Copying

/-! How the system calls copy in a string, whose end they look for themselves. -/

namespace Nachos

open Syscall (bufferSize)

/-- `FILE_NAME_SIZE`. -/
def fileNameSize : Nat := 1000

/-- The C string at the beginning of a buffer: what is in front of its first NUL. -/
def IsString (buffer string : List Byte) : Prop :=
  ∃ rest, buffer = string ++ 0 :: rest ∧ 0 ∉ string

/-- `strcpy`, which stops behind the NUL and does not ask how long the arrays are. -/
def strcpy (dest src : List Byte) : Except Fault (List Byte) :=
  match dest, src with
  | _ :: dest, byte :: src =>
    if byte = 0 then .ok (0 :: dest)
    else do return byte :: (← strcpy dest src)
  | dest, _ => .error (.wildAccess dest.length)

namespace UserBytes

section

variable {σ : Type} (user : UserBytes σ)

/-- `ReadMemSTR`, whose body is that of `ReadMem`. -/
def readMemSTR (state : σ) (addr bytes : BitVec 32) : Except Fault (List Byte × σ) :=
  user.readMem state addr bytes

/-- Loads of so many bytes, one after the other. -/
def loads : Nat → σ → BitVec 32 → Except Fault (List Byte × σ)
  | 0, state, _ => .ok ([], state)
  | count + 1, state, addr => do
    let (value, state) ← user.load state addr
    let (rest, state) ← loads count state (addr + 1)
    return (value.setWidth 8 :: rest, state)

/-- The bytes of the program at an address, all of which are mapped. -/
def Holds (state : σ) (addr : BitVec 32) (bytes : List Byte) : Prop :=
  ∃ after, user.loads bytes.length state addr = .ok (bytes, after)

/-- The buffer of a system call ends up with a string, and with that of the program if it fits. -/
def CopiesString (state : σ) (addr : BitVec 32) (bytes : List Byte) : Prop :=
  ∃ dest after, user.readMemSTR state addr (BitVec.ofNat 32 bufferSize) = .ok (dest, after) ∧
    dest.length = bufferSize ∧ (∃ string, IsString dest string) ∧
    ∀ string, IsString bytes string → IsString dest string

end

/-- A buffer begins with a C string exactly when it holds a NUL. -/
theorem exists_isString {buffer : List Byte} : (∃ string, IsString buffer string) ↔ 0 ∈ buffer := by
  constructor
  · rintro ⟨string, rest, rfl, -⟩
    simp
  · -- The first NUL ends the string.
    intro member
    obtain ⟨string, rest, split, first⟩ := List.eq_append_cons_of_mem member
    exact ⟨string, rest, split, first⟩

/-- What `ReadMem` brings is as long as what was there. -/
theorem length_untilZero (bytes : List Byte) : (untilZero bytes).length = bytes.length := by
  induction bytes with
  | nil => rfl
  | cons byte rest ih =>
    rw [untilZero]
    split
    · simp
    · simp [ih]

/-- Behind a string and its NUL, `ReadMem` brings only zeros. -/
theorem untilZero_append {string : List Byte} (nonzero : 0 ∉ string) (rest : List Byte) :
    untilZero (string ++ 0 :: rest) = string ++ List.replicate (rest.length + 1) 0 := by
  -- The bytes of the string come over one by one, up to the NUL.
  induction string with
  | nil => simp [untilZero]
  | cons byte string ih =>
    rw [List.mem_cons, not_or] at nonzero
    rw [List.cons_append, untilZero, if_neg (Ne.symm nonzero.1), ih nonzero.2, List.cons_append]

/-- The string at the beginning comes over whole. -/
theorem isString_untilZero {bytes string : List Byte} (begins : IsString bytes string) :
    IsString (untilZero bytes) string := by
  obtain ⟨rest, rfl, nonzero⟩ := begins
  exact ⟨List.replicate rest.length 0, by rw [untilZero_append nonzero, List.replicate_succ],
    nonzero⟩

/-- Without a NUL there is none in what `ReadMem` brings. -/
theorem zero_mem_untilZero {bytes : List Byte} : 0 ∈ untilZero bytes ↔ 0 ∈ bytes := by
  induction bytes with
  | nil => rfl
  | cons byte rest ih =>
    rw [untilZero]
    by_cases zero : byte = 0
    · simp [zero]
    · rw [if_neg zero, List.mem_cons, List.mem_cons, ih]

section

variable {σ : Type} {user : UserBytes σ}

/-- After a load the rest of the bytes is still there. -/
theorem Holds.next {state : σ} {addr : BitVec 32} {byte : Byte} {rest : List Byte}
    (held : user.Holds state addr (byte :: rest)) :
    ∃ value after, user.load state addr = .ok (value, after) ∧ value.setWidth 8 = byte ∧
      user.Holds after (addr + 1) rest := by
  obtain ⟨last, loaded⟩ := held
  rw [List.length_cons, loads] at loaded
  obtain ⟨⟨value, middle⟩, first, loaded⟩ := Runs.bind_eq_ok.mp loaded
  obtain ⟨⟨others, last'⟩, later, loaded⟩ := Runs.bind_eq_ok.mp loaded
  simp only [Pure.pure, Except.pure, Except.ok.injEq, Prod.mk.injEq, List.cons.injEq] at loaded
  obtain ⟨⟨rfl, rfl⟩, rfl⟩ := loaded
  exact ⟨value, middle, first, rfl, last', later⟩

/-- Bytes that a program sees are held there. -/
theorem Lawful.holds {Good : σ → Prop} {reach : Nat → Prop} {view : σ → Nat → Option Byte}
    (lawful : Lawful user Good reach view) (rest : List Byte) :
    ∀ {state : σ} {addr : BitVec 32} {seen : Nat → Option Byte},
      Sees Good reach view seen state addr rest → user.Holds state addr rest := by
  induction rest with
  | nil => exact fun _ => ⟨_, rfl⟩
  | cons byte rest ih =>
    intro state addr seen sees
    -- The first load leaves the others what they were.
    obtain ⟨value, middle, loaded, rfl, later⟩ := lawful.next sees
    obtain ⟨last, others⟩ := ih later
    refine ⟨last, ?_⟩
    rw [List.length_cons, loads, loaded, Runs.ok_bind]
    dsimp only
    rw [others]
    rfl

/-- The buffer ends up as `ReadMem` leaves it. -/
theorem Holds.readMemSTR {state : σ} {addr : BitVec 32} {bytes : List Byte}
    (held : user.Holds state addr bytes) (full : bytes.length = bufferSize)
    (fits : addr.toInt + bufferSize < 2 ^ 31) :
    ∃ after, user.readMemSTR state addr (BitVec.ofNat 32 bufferSize) =
      .ok (untilZero bytes, after) := by
  obtain ⟨after, read, -⟩ := readLoop_of_next (fun held => Holds.next held) bytes [] state addr held
  have size : (BitVec.ofNat 32 bufferSize).toInt = 1000 := by decide
  -- Without overflow the loop has one turn for each byte.
  have turned : turns addr (BitVec.ofNat 32 bufferSize) = bytes.length :=
    (turns_eq (by decide) fits).trans full.symm
  refine ⟨after, ?_⟩
  rw [UserBytes.readMemSTR, readMem, size, if_neg (by decide), turned]
  rw [full] at read ⊢
  exact read

/-- The string comes over exactly when there is a NUL among the bytes. -/
theorem Holds.copied_iff {state : σ} {addr : BitVec 32} {bytes : List Byte}
    (held : user.Holds state addr bytes) (full : bytes.length = bufferSize)
    (fits : addr.toInt + bufferSize < 2 ^ 31) :
    user.CopiesString state addr bytes ↔ 0 ∈ bytes := by
  obtain ⟨after, read⟩ := held.readMemSTR full fits
  constructor
  · rintro ⟨dest, after', read', -, terminated, -⟩
    -- The loop itself adds no NUL behind bytes that have none.
    rw [read, Except.ok.injEq, Prod.mk.injEq] at read'
    rw [← read'.1, exists_isString] at terminated
    exact zero_mem_untilZero.mp terminated
  · intro member
    refine ⟨untilZero bytes, after, read, by rw [length_untilZero, full], ?_,
      fun string begins => isString_untilZero begins⟩
    exact exists_isString.mpr (zero_mem_untilZero.mpr member)

/-- A program can be brought to hold any bytes where it has memory. -/
theorem Lawful.exists_holds {Good : σ → Prop} {reach : Nat → Prop} {view : σ → Nat → Option Byte}
    (lawful : Lawful user Good reach view) {state : σ} {addr : BitVec 32} (bytes : List Byte)
    (good : Good state) (reached : ∀ offset, offset < bytes.length → reach (addr.toNat + offset))
    (mapped : ∀ offset, offset < bytes.length →
      (view state (addr.toNat + offset)).isSome = true)
    (fits : addr.toNat + bytes.length ≤ 2 ^ 32) :
    ∃ after, Good after ∧ user.Holds after addr bytes := by
  -- The program stores the bytes, and then sees them.
  obtain ⟨after, -, good', written⟩ :=
    lawful.writeLoop bytes [] state addr good reached mapped fits
  refine ⟨after, good',
    lawful.holds bytes ⟨good', rfl, reached, fun offset byte found => ?_, fits⟩⟩
  rw [written]
  exact Blocks.setCells_inside _ _ (by rw [List.getElem?_map, found]; rfl)

end

end UserBytes

section Strcpy

variable {dest src string : List Byte}

/-- A string is copied with its NUL into an array that is longer than it. -/
theorem strcpy_of_isString (begins : IsString src string) (room : string.length < dest.length) :
    ∃ after, strcpy dest src = .ok after ∧ after.length = dest.length ∧ IsString after string := by
  obtain ⟨rest, rfl, nonzero⟩ := begins
  -- The copy takes a turn for every byte of the string, and one for the NUL.
  induction string generalizing dest with
  | nil =>
    cases dest with
    | nil => simp at room
    | cons first dest =>
      exact ⟨0 :: dest, by simp [strcpy], rfl, dest, rfl, by simp⟩
  | cons byte string ih =>
    rw [List.mem_cons, not_or] at nonzero
    cases dest with
    | nil => simp at room
    | cons first dest =>
      obtain ⟨after, copied, same, rest', rfl, -⟩ :=
        ih (Nat.lt_of_succ_lt_succ room) nonzero.2
      refine ⟨byte :: (string ++ 0 :: rest'), ?_, by simpa using same, rest', rfl, ?_⟩
      · rw [List.cons_append, strcpy, if_neg (Ne.symm nonzero.1), copied]
        rfl
      · exact List.mem_cons.not.mpr (not_or.mpr nonzero)

/-- Without a NUL the copy leaves an array. -/
theorem strcpy_of_not_mem (absent : 0 ∉ src) :
    ∃ index, strcpy dest src = .error (.wildAccess index) := by
  -- Each byte is copied, until one of the arrays ends.
  induction src generalizing dest with
  | nil => exact ⟨dest.length, by cases dest <;> rfl⟩
  | cons byte src ih =>
    rw [List.mem_cons, not_or] at absent
    cases dest with
    | nil => exact ⟨0, rfl⟩
    | cons first dest =>
      obtain ⟨index, failed⟩ := ih absent.2
      exact ⟨index, by rw [strcpy, if_neg (Ne.symm absent.1), failed]; rfl⟩

end Strcpy

/-- The paged build keeps the name of a program, unless `strcpy` leaves the buffer of `Exec`. -/
theorem strcpy_file_iff {σ : Type} {user : UserBytes σ} {state after : σ} {addr : BitVec 32}
    {bytes dest file : List Byte} (held : user.Holds state addr bytes)
    (full : bytes.length = bufferSize) (fits : addr.toInt + bufferSize < 2 ^ 31)
    (array : file.length = fileNameSize)
    (read : user.readMemSTR state addr (BitVec.ofNat 32 bufferSize) = .ok (dest, after)) :
    (∃ kept, strcpy file dest = .ok kept) ↔ 0 ∈ bytes := by
  obtain ⟨after', read'⟩ := held.readMemSTR full fits
  rw [read', Except.ok.injEq, Prod.mk.injEq] at read
  obtain ⟨rfl, -⟩ := read
  constructor
  · rintro ⟨kept, copied⟩
    by_contra endless
    obtain ⟨index, failed⟩ := @strcpy_of_not_mem file _ (UserBytes.zero_mem_untilZero.not.mpr endless)
    rw [copied] at failed
    cases failed
  · intro member
    obtain ⟨string, rest, split, nonzero⟩ :=
      UserBytes.exists_isString.mpr (UserBytes.zero_mem_untilZero.mpr member)
    -- The string and its NUL are in the buffer, and both arrays have the same size.
    have room : string.length < file.length := by
      have length := congrArg List.length split
      rw [UserBytes.length_untilZero, full, List.length_append, List.length_cons] at length
      rw [array, show fileNameSize = bufferSize from rfl]
      omega
    obtain ⟨kept, copied, -⟩ := strcpy_of_isString ⟨rest, split, nonzero⟩ room
    exact ⟨kept, copied⟩

namespace Vm

/--
A string is copied in with its NUL exactly when the program has a NUL among the bytes it names.

This holds in both builds, whatever happens to pages, as long as the loads of the bytes succeed.
-/
theorem copiesString_iff (addr : BitVec 32) (bytes : List Byte) (full : bytes.length = bufferSize)
    (fits : addr.toInt + bufferSize < 2 ^ 31) :
    (∀ kernel, Userprog.userBytes.Holds kernel addr bytes →
      (Userprog.userBytes.CopiesString kernel addr bytes ↔ 0 ∈ bytes)) ∧
    ∀ kernel fuel, (userBytes fuel).Holds kernel addr bytes →
      ((userBytes fuel).CopiesString kernel addr bytes ↔ 0 ∈ bytes) :=
  ⟨fun _ held => held.copied_iff full fits,
    fun _ _ held => held.copied_iff full fits⟩

/-- Bytes that a program sees are held, in both builds. -/
theorem holds_of_byteAt (addr : BitVec 32) (bytes : List Byte)
    (fits : addr.toNat + bytes.length ≤ 2 ^ 32) :
    (∀ kernel, Userprog.AtEase kernel →
      (∀ offset byte, bytes[offset]? = some byte →
        Userprog.Kernel.byteAt kernel (addr.toNat + offset) = some byte) →
      Userprog.userBytes.Holds kernel addr bytes) ∧
    ∀ kernel thread fuel, AtEase kernel thread (pagesOf addr bytes.length) →
      (∀ offset byte, bytes[offset]? = some byte →
        kernel.byteAt (addr.toNat + offset) = some byte) →
      (userBytes (fuel + 2)).Holds kernel addr bytes :=
  ⟨fun _ ease held =>
      Userprog.userBytes_lawful.holds bytes ⟨ease, rfl, fun _ _ => trivial, held, fits⟩,
    fun _ thread fuel ease held => (userBytes_lawful thread _ fuel).holds bytes
      ⟨ease, rfl, fun offset inside => ⟨offset, inside, rfl⟩, held, fits⟩⟩

/-- A program that was just loaded can hold any bytes of the size of a buffer, in both builds. -/
theorem exists_holds (bytes : List Byte) (full : bytes.length = bufferSize) :
    (∃ kernel, Userprog.AtEase kernel ∧ Userprog.userBytes.Holds kernel 0#32 bytes) ∧
    ∃ kernel, AtEase kernel 1 (fun _ => True) ∧ (userBytes 2).Holds kernel 0#32 bytes := by
  -- The program of the example has nine pages, and a buffer is shorter.
  obtain ⟨kernel, -, ease, seen⟩ := Userprog.exec_shortProgram
  obtain ⟨kernel', -, ease', seen'⟩ := exec_shortProgram
  have small (offset : Nat) (early : offset < bytes.length) :
      (0#32).toNat + offset < 9 * pageSize := by
    rw [full, show bufferSize = 1000 from rfl] at early
    rw [BitVec.toNat_ofNat, show pageSize = 128 from rfl]
    omega
  have fits : (0#32).toNat + bytes.length ≤ 2 ^ 32 := by
    rw [full]
    decide
  exact ⟨Userprog.userBytes_lawful.exists_holds bytes ease (fun _ _ => trivial)
      (fun offset early => seen _ (small offset early)) fits,
    (userBytes_lawful 1 _ 0).exists_holds bytes (ease' _) (fun _ _ => trivial)
      (fun offset early => seen' _ (small offset early)) fits⟩

/-- A name of two letters, with other data behind its NUL. -/
def shortName : List Byte := [72#8, 105#8, 0#8] ++ List.replicate 997 1#8

/-- A short name is copied in, in both builds. -/
theorem copiesString_shortName :
    (∃ kernel, Userprog.userBytes.CopiesString kernel 0#32 shortName) ∧
    ∃ kernel, (userBytes 2).CopiesString kernel 0#32 shortName := by
  have full : shortName.length = bufferSize := by
    rw [shortName, List.length_append, List.length_replicate]
    rfl
  have terminated : 0 ∈ shortName := List.mem_append_left _ (by decide)
  obtain ⟨⟨kernel, -, held⟩, kernel', -, held'⟩ := exists_holds shortName full
  obtain ⟨linear, paged⟩ := copiesString_iff 0#32 shortName full (by decide)
  exact ⟨⟨kernel, (linear kernel held).mpr terminated⟩,
    kernel', (paged kernel' 2 held').mpr terminated⟩

/-- A name that fills the buffer is copied in without a NUL. -/
theorem not_copiesString_longName :
    (∃ kernel, Userprog.userBytes.Holds kernel 0#32 (List.replicate bufferSize 65#8) ∧
      ¬ Userprog.userBytes.CopiesString kernel 0#32 (List.replicate bufferSize 65#8)) ∧
    ∃ kernel, (userBytes 2).Holds kernel 0#32 (List.replicate bufferSize 65#8) ∧
      ¬ (userBytes 2).CopiesString kernel 0#32 (List.replicate bufferSize 65#8) := by
  have full : (List.replicate bufferSize 65#8).length = bufferSize := List.length_replicate
  have endless : 0#8 ∉ List.replicate bufferSize 65#8 := by simp [List.mem_replicate]
  obtain ⟨⟨kernel, -, held⟩, kernel', -, held'⟩ := exists_holds (List.replicate bufferSize 65#8) full
  exact ⟨⟨kernel, held, (held.copied_iff full (by decide)).not.mpr endless⟩,
    kernel', held', (held'.copied_iff full (by decide)).not.mpr endless⟩

end Vm

end Nachos
