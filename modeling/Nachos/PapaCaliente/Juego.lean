import Nachos.Lib.Ring
import Nachos.PapaCaliente.CollatzLaws

/-! The game itself: a line of players, and the potato with the first of them. -/

namespace PapaCaliente

/-- What is printed during a game. -/
inductive Evento where
  | fuera (jugador : Jugador)
  | ganador (jugador : Jugador)
  deriving DecidableEq, Repr

/-- What a game is started with: the players are `0` to `players - 1`. -/
structure Juego where
  players : Nat
  rotacion : Int
  /-- Who gets the potato first. -/
  first : Jugador
  value : SSize
  /-- The number that `rand_r` gives for a seed. -/
  rand_r : Nat → Nat
  inside : first < players
  turns : rotacion = -1 ∨ rotacion = 1

namespace Juego

variable (juego : Juego)

/-- The value of the potato after it has exploded at a player. -/
def reseed (jugador : Jugador) : SSize := BitVec.ofNat 64 (juego.rand_r jugador % MAXRANDOM)

/-- How far away the next player is on the circle. -/
def distance : Nat := if juego.rotacion = 1 then 1 else juego.players - 1

/-- The next player on the circle, in or out of the game. -/
def turn : Jugador → Jugador := Ring.turn juego.players juego.distance

/-- The circle of all players, read from one of them on. -/
def circle (jugador : Jugador) : List Jugador := Ring.walk juego.turn juego.players jugador

end Juego

/-- A game that goes on: the players in it, the first of whom has the potato. -/
structure Ronda where
  line : List Jugador
  value : SSize
  eventos : List Evento

namespace Ronda

/-- The player with the potato looks at it. -/
def paso (reseed : Jugador → SSize) (ronda : Ronda) : Ronda :=
  match ronda.line with
  | [] => ronda
  | [jugador] => { ronda with line := [], eventos := ronda.eventos ++ [.ganador jugador] }
  | jugador :: siguiente :: others =>
    if collatz ronda.value = 1 then
      { line := siguiente :: others
        value := reseed jugador
        eventos := ronda.eventos ++ [.fuera jugador] }
    else
      { ronda with line := siguiente :: others ++ [jugador], value := collatz ronda.value }

variable {reseed : Jugador → SSize} {ronda : Ronda} {jugador siguiente : Jugador}
  {others : List Jugador}

/-- Nothing happens after the end. -/
theorem paso_over (line : ronda.line = []) : ronda.paso reseed = ronda := by
  unfold paso
  split
  · rfl
  · simp_all
  · simp_all

/-- The last player wins. -/
theorem paso_last (line : ronda.line = [jugador]) :
    ronda.paso reseed =
      { ronda with line := [], eventos := ronda.eventos ++ [.ganador jugador] } := by
  unfold paso
  split
  · simp_all
  · simp_all
  · simp_all

/-- The potato explodes at the first of several players. -/
theorem paso_explode (line : ronda.line = jugador :: siguiente :: others)
    (explodes : collatz ronda.value = 1) :
    ronda.paso reseed =
      { line := siguiente :: others
        value := reseed jugador
        eventos := ronda.eventos ++ [.fuera jugador] } := by
  unfold paso
  split
  · simp_all
  · simp_all
  · rename_i same
    obtain ⟨rfl, rfl, rfl⟩ : jugador = _ ∧ siguiente = _ ∧ others = _ := by
      simpa using line.symm.trans same
    exact if_pos explodes

/-- The potato is passed on by the first of several players. -/
theorem paso_pass (line : ronda.line = jugador :: siguiente :: others)
    (quiet : collatz ronda.value ≠ 1) :
    ronda.paso reseed =
      { ronda with
        line := siguiente :: others ++ [jugador]
        value := collatz ronda.value } := by
  unfold paso
  split
  · simp_all
  · simp_all
  · rename_i same
    obtain ⟨rfl, rfl, rfl⟩ : jugador = _ ∧ siguiente = _ ∧ others = _ := by
      simpa using line.symm.trans same
    exact if_neg quiet

/-- What has happened is never taken back. -/
theorem eventos_prefix (ronda : Ronda) : ronda.eventos <+: (ronda.paso reseed).eventos := by
  unfold paso
  split
  · exact List.prefix_rfl
  · exact List.prefix_append _ _
  · split
    · exact List.prefix_append _ _
    · exact List.prefix_rfl

end Ronda

namespace Juego

variable {juego : Juego}

/-- The game after some steps. -/
def ronda (juego : Juego) (steps : Nat) : Ronda :=
  (Ronda.paso juego.reseed)^[steps]
    { line := juego.circle juego.first, value := juego.value, eventos := [] }

/-- One more step. -/
theorem ronda_succ (steps : Nat) :
    juego.ronda (steps + 1) = (juego.ronda steps).paso juego.reseed :=
  Function.iterate_succ_apply' _ _ _

/-- Later in the game everything that happened before is still on record. -/
theorem ronda_mono {fewer more : Nat} (less : fewer ≤ more) :
    (juego.ronda fewer).eventos <+: (juego.ronda more).eventos := by
  induction more, less using Nat.le_induction with
  | base => exact List.prefix_rfl
  | succ more _ ih =>
    rw [ronda_succ]
    exact ih.trans (Ronda.eventos_prefix _)

/-- There is a player. -/
theorem some_ (juego : Juego) : 0 < juego.players := Nat.zero_lt_of_lt juego.inside

/-- The circle is not left. -/
theorem turn_lt (jugador : Jugador) : juego.turn jugador < juego.players :=
  Ring.turn_lt juego.some_ jugador

/-- Going round the circle leads back. -/
theorem lap {jugador : Jugador} (inside : jugador < juego.players) :
    juego.turn^[juego.players] jugador = jugador :=
  Ring.turn_lap inside

/-- The distance has no divisor in common with the number of players. -/
theorem coprime_distance (juego : Juego) : juego.players.Coprime juego.distance := by
  unfold distance
  split
  · exact Nat.coprime_one_right _
  · exact (Nat.coprime_self_sub_right juego.some_).mpr (Nat.coprime_one_right _)

/-- Every player stands in the circle once. -/
theorem circle_nodup {jugador : Jugador} (inside : jugador < juego.players) :
    (juego.circle jugador).Nodup :=
  Ring.walk_turn_nodup inside juego.coprime_distance

/-- Who stands in the circle is a player. -/
theorem lt_of_mem_circle {jugador other : Jugador} (inside : jugador < juego.players)
    (member : other ∈ juego.circle jugador) : other < juego.players :=
  Ring.lt_of_mem_walk inside member

/-- All players stand in the circle. -/
theorem mem_circle {jugador other : Jugador} (inside : jugador < juego.players)
    (there : other < juego.players) : other ∈ juego.circle jugador :=
  Ring.mem_walk_turn inside juego.coprime_distance there

/-- The circle begins with the player it is read from. -/
theorem circle_eq (jugador : Jugador) : ∃ rest, juego.circle jugador = jugador :: rest := by
  obtain ⟨fewer, several⟩ := Nat.exists_eq_succ_of_ne_zero (Nat.ne_of_gt juego.some_)
  exact ⟨_, by rw [circle, several, Ring.walk]⟩

end Juego

end PapaCaliente
