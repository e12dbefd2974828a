import Nachos.PapaCaliente.PThreadsLaws
import Nachos.PapaCaliente.ShMLaws

/-! The processes with shared memory and the threads print the same. -/

namespace PapaCaliente

variable {juego : Juego}

/-- What the processes have printed is what happens in some steps of the game. -/
theorem ShM.Reached.eventos {memoria : ShM.Memoria} (reached : ShM.Reached juego memoria) :
    ∃ steps, memoria.eventos = (juego.ronda steps).eventos := by
  obtain ⟨steps, ⟨process, playing, -⟩ | ⟨winner, ended⟩⟩ := reached.simulates
  · exact ⟨steps, playing.eventos⟩
  · exact ⟨steps, ended.eventos⟩

/-- What the threads have printed is what happens in some steps of the game. -/
theorem PThreads.Reached.eventos {simulacion : PThreads.Simulacion}
    (reached : PThreads.Reached juego simulacion) :
    ∃ steps, simulacion.eventos = (juego.ronda steps).eventos := by
  obtain ⟨steps, simulates⟩ := reached.simulates
  exact ⟨steps, simulates.agrees.eventos⟩

/-- The processes can print what happens in any number of steps. -/
theorem ShM.exists_eventos (juego : Juego) (steps : Nat) :
    ∃ memoria, ShM.Reached juego memoria ∧ memoria.eventos = (juego.ronda steps).eventos := by
  obtain ⟨memoria, reached, ⟨winner, ended⟩ | ⟨process, playing, -⟩⟩ :=
    ShM.exists_reached juego steps
  · exact ⟨memoria, reached, ended.eventos⟩
  · exact ⟨memoria, reached, playing.eventos⟩

/--
Both versions eliminate the same players in the same order and have the same winner.

What one of them prints the other one can print, and of any two runs one has printed what the other
has, and perhaps more.
-/
theorem same_game (juego : Juego) :
    (∀ memoria, ShM.Reached juego memoria →
      ∃ simulacion, PThreads.Reached juego simulacion ∧
        simulacion.eventos = memoria.eventos) ∧
    (∀ simulacion, PThreads.Reached juego simulacion →
      ∃ memoria, ShM.Reached juego memoria ∧ memoria.eventos = simulacion.eventos) ∧
    ∀ memoria simulacion, ShM.Reached juego memoria → PThreads.Reached juego simulacion →
      memoria.eventos <+: simulacion.eventos ∨ simulacion.eventos <+: memoria.eventos := by
  refine ⟨?_, ?_, ?_⟩
  · intro memoria reached
    obtain ⟨steps, eventos⟩ := reached.eventos
    obtain ⟨simulacion, reached, simulates, -⟩ := PThreads.exists_reached juego steps
    exact ⟨simulacion, reached, simulates.agrees.eventos.trans eventos.symm⟩
  · intro simulacion reached
    obtain ⟨steps, eventos⟩ := reached.eventos
    obtain ⟨memoria, reached, same⟩ := ShM.exists_eventos juego steps
    exact ⟨memoria, reached, same.trans eventos.symm⟩
  · -- Both have come some way in the same game.
    intro memoria simulacion processes threads
    obtain ⟨some_, printed⟩ := processes.eventos
    obtain ⟨other, simulated⟩ := threads.eventos
    rw [printed, simulated]
    rcases Nat.le_total some_ other with less | less
    · exact .inl (Juego.ronda_mono less)
    · exact .inr (Juego.ronda_mono less)

end PapaCaliente
