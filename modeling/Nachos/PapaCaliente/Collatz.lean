import Mathlib.Data.BitVec

/-! What all versions of the game share: the potato, and the rule it changes by. -/

namespace PapaCaliente

/-- A player. -/
abbrev Jugador := Nat

/-- `ssize_t`. -/
abbrev SSize := BitVec 64

/-- `Papa`. -/
structure Papa where
  players : Nat
  value : SSize
  rotacion : Int
  deriving DecidableEq, Repr

/-- `collatz`; numbers wrap around, and the shift to the right keeps the sign. -/
def collatz (value : SSize) : SSize :=
  if value &&& 1 = 1 then (value <<< 1) + value + 1 else value.sshiftRight 1

/-- `MAXRANDOM`. -/
def MAXRANDOM : Nat := 10000

end PapaCaliente
