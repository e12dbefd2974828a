import Nachos.PapaCaliente.ShM

/-! The processes play the game: the players alive are the line, read from where the potato is. -/

namespace PapaCaliente.ShM

/-- What a state of the processes and a state of the game have in common while it goes on. -/
structure Playing (juego : Juego) (memoria : Memoria) (ronda : Ronda) (process : Jugador) :
    Prop where
  inside : process < juego.players
  eventos : memoria.eventos = ronda.eventos
  players : memoria.papa.players = ronda.line.length
  value : memoria.papa.value = ronda.value
  line : ronda.line = (juego.circle process).filter memoria.live
  some_ : ronda.line ≠ []
  /-- Nobody who is out of the game meets a negative potato. -/
  tame : ∀ other, memoria.live other = false → Tame ronda.value

/-- The semaphores when only one of them may be passed, or none. -/
def only (semaphore : Option Nat) (other : Nat) : Nat := if semaphore = some other then 1 else 0

/-- A process that has the potato, with everybody else waiting. -/
structure Holding (memoria : Memoria) (process : Jugador) : Prop where
  main : memoria.main = .waiting
  semaphores : memoria.semaphores = some (only none)
  holds : memoria.place process = .holding
  idle : ∀ other, other ≠ process → memoria.place other = .waiting

/-- A process that is about to signal another one, with everybody else waiting. -/
structure Passing (memoria : Memoria) (passer process : Jugador) : Prop where
  main : memoria.main = .waiting
  semaphores : memoria.semaphores = some (only none)
  signals : memoria.place passer = .signalling [process] false
  idle : ∀ other, other ≠ passer → memoria.place other = .waiting

/-- A process that can go on, with everybody waiting. -/
structure Ready (memoria : Memoria) (process : Jugador) : Prop where
  main : memoria.main = .waiting
  semaphores : memoria.semaphores = some (only (some process))
  idle : ∀ other, memoria.place other = .waiting

/-- The potato is about to go to a process, or is there. -/
inductive Located (juego : Juego) (memoria : Memoria) (process : Jugador) : Prop
  | starting : memoria.main = .starting → process = juego.first →
      memoria.semaphores = some (only none) →
      (∀ other, memoria.place other = .waiting) → Located juego memoria process
  | ready : Ready memoria process → Located juego memoria process
  | holding : Holding memoria process → Located juego memoria process
  | passing (passer : Jugador) : Passing memoria passer process → Located juego memoria process

/-- A process has won, and the others leave the loop when they see the potato. -/
structure Over (juego : Juego) (memoria : Memoria) (ronda : Ronda) (winner : Jugador) : Prop where
  nobody : ronda.line = []
  eventos : memoria.eventos = ronda.eventos
  started : memoria.main ≠ .starting
  value : Negative memoria.papa.value
  dead : ∀ other, other < juego.players → other ≠ winner → memoria.live other = false
  outside : ∀ other, juego.players ≤ other → memoria.place other = .waiting
  done : (∃ semaphores, memoria.place winner = .signalling semaphores true) ∨
    memoria.place winner = .left ∨ memoria.place winner = .ended

/-- The processes are where the game is. -/
def Simulates (juego : Juego) (memoria : Memoria) (ronda : Ronda) : Prop :=
  (∃ process, Playing juego memoria ronda process ∧ Located juego memoria process) ∨
    ∃ winner, Over juego memoria ronda winner

section

variable {juego : Juego} {memoria after : Memoria} {ronda : Ronda} {process other : Jugador}

/-- `next_process` is the next place of the circle. -/
theorem nextProcess_eq {process : Nat} (inside : process < juego.players) :
    juego.nextProcess process = juego.turn process := by
  unfold Juego.nextProcess Juego.turn Juego.distance Ring.turn
  rcases juego.turns with left | right
  · rw [left, if_neg (by decide : ¬ (-1 : Int) = 1)]
    by_cases first : process = 0
    · have wraps : (process : Int) + -1 = -1 := by omega
      have last : process + (juego.players - 1) = juego.players - 1 := by omega
      rw [last, Nat.mod_eq_of_lt (by omega)]
      exact if_pos wraps
    · have before : ¬ (process : Int) + -1 = -1 := by omega
      have number : ((process : Int) + -1).toNat = process - 1 := by omega
      have whole : process + (juego.players - 1) = process - 1 + juego.players := by omega
      rw [whole, Nat.add_mod_right]
      simp only [if_neg before, number]
  · rw [right, if_pos rfl]
    have positive : ¬ (process : Int) + 1 = -1 := by omega
    simp only [if_neg positive]
    rfl

/-- A semaphore that may be passed is the only one. -/
theorem only_ne_zero {semaphore : Option Nat} : only semaphore other ≠ 0 ↔ semaphore = some other := by
  unfold only
  split <;> simp_all

/-- Passing the only open semaphore closes it. -/
theorem only_wait : Function.update (only (some process)) process 0 = only none := by
  funext other
  by_cases same : other = process
  · rw [same, Function.update_self]
    rfl
  · rw [Function.update_of_ne same]
    exact if_neg fun opened => same (Option.some.inj opened).symm

/-- Signalling opens one semaphore. -/
theorem only_signal : Function.update (only none) process 1 = only (some process) := by
  funext other
  by_cases same : other = process
  · rw [same, Function.update_self]
    exact (if_pos rfl).symm
  · rw [Function.update_of_ne same]
    exact (if_neg fun opened => same (Option.some.inj opened).symm).symm

/-- Signalling when all semaphores are closed. -/
theorem signal_semaphores (semaphores : memoria.semaphores = some (only none)) :
    (memoria.signal process).semaphores = some (only (some process)) := by
  rw [← only_signal]
  simp [Memoria.signal, Memoria.add, semaphores, only]

/-- Nobody passes a closed semaphore. -/
theorem wait_closed {semaphore : Option Nat} (semaphores : memoria.semaphores = some (only semaphore))
    (closed : semaphore ≠ some other) : memoria.wait process other = none := by
  have zero : only semaphore other = 0 := by
    by_contra opened
    exact closed (only_ne_zero.mp opened)
  simp [Memoria.wait, semaphores, zero]

/-- The open semaphore is passed. -/
theorem wait_open (semaphores : memoria.semaphores = some (only (some process))) :
    memoria.wait process process = some { memoria with
      semaphores := some (only none)
      undo := Function.update memoria.undo process (memoria.undo process + 1) } := by
  have one : only (some process) process = 1 := if_pos rfl
  simp [Memoria.wait, semaphores, one, only_wait]

/-- `main` lets the first process go. -/
theorem Playing.start (playing : Playing juego memoria ronda process)
    (chosen : process = juego.first) (semaphores : memoria.semaphores = some (only none))
    (idle : ∀ other, memoria.place other = .waiting) :
    Playing juego { memoria.signal juego.first with main := .waiting } ronda process ∧
      Ready { memoria.signal juego.first with main := .waiting } process := by
  refine ⟨{ playing with }, rfl, ?_, idle⟩
  rw [chosen]
  exact signal_semaphores semaphores

/-- The process that the potato is for takes it. -/
theorem Playing.wait (playing : Playing juego memoria ronda process) (ready : Ready memoria process) :
    ∃ after, step juego memoria (.wait process) = .ok after ∧ after.live = memoria.live ∧
      Playing juego after ronda process ∧ Holding after process := by
  have able : process < juego.players ∧ memoria.place process = .waiting :=
    ⟨playing.inside, ready.idle process⟩
  simp only [step, if_pos able, wait_open ready.semaphores]
  refine ⟨_, rfl, rfl, { playing with }, ready.main, rfl, Function.update_self _ _ _, ?_⟩
  intro other apart
  exact (Function.update_of_ne apart _ _).trans (ready.idle other)

/-- A process signals the one that the potato is for. -/
theorem Playing.signal {passer : Jugador} (playing : Playing juego memoria ronda process)
    (passing : Passing memoria passer process) :
    ∃ after, step juego memoria (.signal passer) = .ok after ∧
      Playing juego after ronda process ∧ Ready after process := by
  simp only [step, passing.signals]
  refine ⟨_, rfl, { playing with }, passing.main, signal_semaphores passing.semaphores, ?_⟩
  intro other
  by_cases same : other = passer
  · rw [same]
    exact Function.update_self _ _ _
  · exact (Function.update_of_ne same _ _).trans (passing.idle other same)

/-- The process with the potato goes on to signal the next one. -/
theorem Holding.pass (holding : Holding memoria process) (inside : process < juego.players)
    (main : after.main = memoria.main) (semaphores : after.semaphores = memoria.semaphores)
    (place : after.place =
      Function.update memoria.place process (.signalling [juego.nextProcess process] false)) :
    Passing after process (juego.turn process) := by
  rw [nextProcess_eq inside] at place
  refine ⟨main.trans holding.main, semaphores.trans holding.semaphores, ?_, ?_⟩
  · rw [place, Function.update_self]
  · intro other apart
    rw [place, Function.update_of_ne apart]
    exact holding.idle other apart

/-- A process that is out of the game lets the potato through. -/
theorem Playing.forward (playing : Playing juego memoria ronda process)
    (holding : Holding memoria process) (dead : memoria.live process = false) :
    Playing juego (memoria.persona juego process) ronda (juego.turn process) ∧
      Passing (memoria.persona juego process) process (juego.turn process) := by
  -- The potato is not negative as long as nobody has won.
  have positive : memoria.papa.value.slt 0 ≠ true := by
    rw [playing.value]
    exact playing.tame process dead 0
  have passed : memoria.persona juego process =
      memoria.move process (.signalling [juego.nextProcess process] false) := by
    simp only [Memoria.persona, dead, if_neg positive, if_neg Bool.false_ne_true]
  rw [passed]
  refine ⟨{ playing with inside := juego.turn_lt process, line := ?_ },
    holding.pass playing.inside rfl rfl rfl⟩
  rw [playing.line]
  exact (Ring.filter_walk_dead (juego.lap playing.inside) dead).symm

/-- The last process that is alive wins. -/
theorem Playing.win (playing : Playing juego memoria ronda process)
    (holding : Holding memoria process) (shape : ronda.line = [process]) :
    Over juego (memoria.persona juego process) (ronda.paso juego.reseed) process := by
  have alive : process ∈ (juego.circle process).filter memoria.live := by
    rw [← playing.line, shape]
    exact List.mem_singleton_self process
  have live := (List.mem_filter.mp alive).2
  have one : memoria.papa.players = 1 := by
    rw [playing.players, shape, List.length_singleton]
  have won : memoria.persona juego process =
      { memoria.move process (.signalling [juego.nextProcess process] true) with
        papa := { memoria.papa with value := -1 }
        eventos := memoria.eventos ++ [.ganador process] } := by
    simp only [Memoria.persona, if_pos live, if_pos one]
  rw [won, Ronda.paso_last shape]
  refine ⟨rfl, ?_, ?_, ?_, ?_, ?_, .inl ⟨_, Function.update_self _ _ _⟩⟩
  · exact congrArg (· ++ [Evento.ganador process]) playing.eventos
  · show memoria.main ≠ .starting
    rw [holding.main]
    decide
  · exact rfl
  · -- Whoever else were alive would be in the line.
    intro other inside apart
    by_contra alive
    have member : other ∈ (juego.circle process).filter memoria.live :=
      List.mem_filter.mpr ⟨juego.mem_circle playing.inside inside, Bool.of_not_eq_false alive⟩
    rw [← playing.line, shape] at member
    exact apart (List.mem_singleton.mp member)
  · intro other above
    have apart : other ≠ process := fun same =>
      absurd playing.inside (Nat.not_lt.mpr (same ▸ above))
    exact (Function.update_of_ne apart _ _).trans (holding.idle other apart)

/-- The potato explodes at a process, which is alive no longer. -/
theorem Playing.explode {second : Jugador} {others : List Jugador}
    (playing : Playing juego memoria ronda process) (holding : Holding memoria process)
    (live : memoria.live process = true) (shape : ronda.line = process :: second :: others)
    (explodes : collatz ronda.value = 1) :
    Playing juego (memoria.persona juego process) (ronda.paso juego.reseed)
      (juego.turn process) ∧ Passing (memoria.persona juego process) process (juego.turn process) := by
  have players : memoria.papa.players = others.length + 2 := by
    rw [playing.players, shape]
    rfl
  have several : memoria.papa.players ≠ 1 := by omega
  have played : memoria.persona juego process =
      { memoria.move process (.signalling [juego.nextProcess process] false) with
        live := Function.update memoria.live process false
        papa := ⟨memoria.papa.players - 1, juego.reseed process, memoria.papa.rotacion⟩
        eventos := memoria.eventos ++ [.fuera process] } := by
    have explodes : collatz memoria.papa.value = 1 := playing.value ▸ explodes
    simp only [Memoria.persona, if_pos live, if_neg several, if_pos explodes]
  rw [played, Ronda.paso_explode shape explodes]
  refine ⟨⟨juego.turn_lt process, ?_, ?_, rfl, ?_, List.cons_ne_nil _ _, ?_⟩,
    holding.pass playing.inside rfl rfl rfl⟩
  · exact congrArg (· ++ [Evento.fuera process]) playing.eventos
  · show memoria.papa.players - 1 = _
    rw [players]
    rfl
  · -- Without the process the line is the rest of what it was.
    have dead : Function.update memoria.live process false process = false :=
      Function.update_self _ _ _
    have moved := Ring.filter_walk_dead (juego.lap playing.inside) dead
    refine Eq.trans ?_ moved.symm
    have line := playing.line
    rw [shape] at line
    obtain ⟨rest, circle⟩ := juego.circle_eq process
    have fresh : process ∉ rest := by
      have distinct := juego.circle_nodup playing.inside
      rw [circle] at distinct
      exact (List.nodup_cons.mp distinct).1
    have same : ∀ other ∈ rest,
        Function.update memoria.live process false other = memoria.live other := by
      intro other member
      refine Function.update_of_ne ?_ _ _
      rintro rfl
      exact fresh member
    rw [circle, List.filter_cons_of_pos live] at line
    have walk : Ring.walk juego.turn juego.players process = process :: rest := circle
    rw [walk, List.filter_cons_of_neg (by simp), List.filter_congr same]
    exact (List.cons.inj line).2
  · intro other _
    exact tame_reseed _

/-- The potato does not explode, and goes on. -/
theorem Playing.pass {second : Jugador} {others : List Jugador}
    (playing : Playing juego memoria ronda process) (holding : Holding memoria process)
    (live : memoria.live process = true) (shape : ronda.line = process :: second :: others)
    (quiet : collatz ronda.value ≠ 1) :
    Playing juego (memoria.persona juego process) (ronda.paso juego.reseed)
      (juego.turn process) ∧ Passing (memoria.persona juego process) process (juego.turn process) := by
  have players : memoria.papa.players = others.length + 2 := by
    rw [playing.players, shape]
    rfl
  have several : memoria.papa.players ≠ 1 := by omega
  have played : memoria.persona juego process =
      { memoria.move process (.signalling [juego.nextProcess process] false) with
        papa := { memoria.papa with value := collatz memoria.papa.value } } := by
    have quiet : collatz memoria.papa.value ≠ 1 := playing.value ▸ quiet
    simp only [Memoria.persona, if_pos live, if_neg several, if_neg quiet]
  rw [played, Ronda.paso_pass shape quiet]
  refine ⟨⟨juego.turn_lt process, playing.eventos, ?_, ?_, ?_, List.cons_ne_nil _ _, ?_⟩,
    holding.pass playing.inside rfl rfl rfl⟩
  · show memoria.papa.players = _
    simp [players]
  · exact congrArg collatz playing.value
  · obtain ⟨rest, here, next⟩ :=
      Ring.filter_walk_live (juego.lap playing.inside) juego.some_ live
    have line := shape.symm.trans (playing.line.trans here)
    rw [← (List.cons.inj line).2] at next
    exact next.symm
  · intro other dead
    exact (playing.tame other dead).collatz

/-- The process with the potato lets it through, or makes one step of the game. -/
theorem Playing.persona (playing : Playing juego memoria ronda process)
    (holding : Holding memoria process) :
    (memoria.live process = false ∧
      Playing juego (memoria.persona juego process) ronda (juego.turn process) ∧
      Passing (memoria.persona juego process) process (juego.turn process)) ∨
    Over juego (memoria.persona juego process) (ronda.paso juego.reseed) process ∨
    (Playing juego (memoria.persona juego process) (ronda.paso juego.reseed)
      (juego.turn process) ∧
      Passing (memoria.persona juego process) process (juego.turn process)) := by
  cases live : memoria.live process with
  | false => exact .inl ⟨rfl, playing.forward holding live⟩
  | true =>
    obtain ⟨rest, here, -⟩ := Ring.filter_walk_live (juego.lap playing.inside) juego.some_ live
    have shape : ronda.line = process :: rest := playing.line.trans here
    cases rest with
    | nil => exact .inr (.inl (playing.win holding shape))
    | cons second others =>
      by_cases explodes : collatz ronda.value = 1
      · exact .inr (.inr (playing.explode holding live shape explodes))
      · exact .inr (.inr (playing.pass holding live shape explodes))

variable {winner : Jugador}

/-- The winner is not in the loop. -/
theorem Over.out (ended : Over juego memoria ronda winner) :
    memoria.place winner ≠ .waiting ∧ memoria.place winner ≠ .holding ∧
      ∀ semaphores, memoria.place winner ≠ .signalling semaphores false := by
  rcases ended.done with ⟨semaphores, place⟩ | place | place <;> simp [place]

/-- A process may go anywhere, but the winner does not go back into the loop. -/
theorem Over.move {place : Place} (ended : Over juego memoria ronda winner)
    (busy : process < juego.players)
    (done : process = winner → (∃ semaphores, place = .signalling semaphores true) ∨
      place = .left ∨ place = .ended) :
    Over juego (memoria.move process place) ronda winner where
  nobody := ended.nobody
  eventos := ended.eventos
  started := ended.started
  value := ended.value
  dead := ended.dead
  outside := by
    intro other above
    have apart : other ≠ process := fun same => absurd busy (Nat.not_lt.mpr (same ▸ above))
    exact (Function.update_of_ne apart _ _).trans (ended.outside other above)
  done := by
    by_cases same : winner = process
    · have here : (memoria.move process place).place winner = place := by
        rw [same]
        exact Function.update_self _ _ _
      rw [here]
      exact done same.symm
    · have there : (memoria.move process place).place winner = memoria.place winner :=
        Function.update_of_ne same _ _
      rw [there]
      exact ended.done

/-- A process that does something is one of those that play. -/
theorem Over.busy (ended : Over juego memoria ronda winner)
    (awake : memoria.place process ≠ .waiting) : process < juego.players := by
  by_contra outside
  exact awake (ended.outside process (Nat.not_lt.mp outside))

/-- The semaphores do not matter once there is a winner. -/
theorem Over.congr (ended : Over juego memoria ronda winner) (eventos : after.eventos = memoria.eventos)
    (papa : after.papa = memoria.papa) (live : after.live = memoria.live)
    (place : after.place = memoria.place) (started : after.main ≠ .starting) :
    Over juego after ronda winner where
  nobody := ended.nobody
  eventos := eventos.trans ended.eventos
  started := started
  value := papa ▸ ended.value
  dead := live ▸ ended.dead
  outside := place ▸ ended.outside
  done := place ▸ ended.done

/-- `Wait` changes semaphores only. -/
theorem wait_frame {semaphore : Nat} (waited : memoria.wait process semaphore = some after) :
    after.eventos = memoria.eventos ∧ after.papa = memoria.papa ∧ after.live = memoria.live ∧
      after.place = memoria.place ∧ after.main = memoria.main := by
  unfold Memoria.wait at waited
  split at waited
  · obtain rfl := Option.some.inj waited
    simp
  · split at waited
    · cases waited
    · obtain rfl := Option.some.inj waited
      simp

/-- After the end nothing more is printed. -/
theorem Over.step {action : Action} (ended : Over juego memoria ronda winner)
    (stepped : step juego memoria action = .ok after) : Over juego after ronda winner := by
  obtain ⟨notWaiting, notHolding, inLoop⟩ := ended.out
  cases action with
  | start =>
    simp only [ShM.step] at stepped
    split at stepped
    · rename_i starting
      exact absurd starting ended.started
    · cases stepped
  | wait process =>
    simp only [ShM.step] at stepped
    split at stepped
    · rename_i able
      split at stepped
      · rename_i middle waited
        obtain rfl := Except.ok.inj stepped
        obtain ⟨eventos, papa, live, place, main⟩ := wait_frame waited
        refine (ended.congr eventos papa live place (main ▸ ended.started)).move able.1 ?_
        rintro rfl
        exact absurd able.2 notWaiting
      · cases stepped
    · cases stepped
  | persona process =>
    simp only [ShM.step] at stepped
    split at stepped
    · rename_i holds
      obtain rfl := Except.ok.inj stepped
      have awake : memoria.place process ≠ .waiting := by simp [holds]
      have inside := ended.busy awake
      have apart : process ≠ winner := by
        rintro rfl
        exact notHolding holds
      -- It is not alive, and sees a negative potato.
      have dead := ended.dead process inside apart
      have negative : memoria.papa.value.slt 0 = true := ended.value
      simp only [Memoria.persona, dead, if_neg Bool.false_ne_true, if_pos negative]
      exact ended.move inside fun same => absurd same apart
    · cases stepped
  | signal process =>
    simp only [ShM.step] at stepped
    split at stepped
    · rename_i semaphore others leaves signals
      obtain rfl := Except.ok.inj stepped
      have awake : memoria.place process ≠ .waiting := by simp [signals]
      have inside := ended.busy awake
      have signalled : Over juego (memoria.signal semaphore) ronda winner :=
        ended.congr rfl rfl rfl rfl ended.started
      refine signalled.move inside ?_
      rintro rfl
      cases leaves with
      | false => exact absurd signals (inLoop _)
      | true =>
        by_cases last : others = []
        · simp [last]
        · simp [last]
    · cases stepped
  | exit process =>
    simp only [ShM.step] at stepped
    split at stepped
    · rename_i left
      obtain rfl := Except.ok.inj stepped
      have awake : memoria.place process ≠ .waiting := by simp [left]
      have inside := ended.busy awake
      have told : Over juego
          (if memoria.live process then memoria.signal juego.players else memoria) ronda winner := by
        split
        · exact ended.congr rfl rfl rfl rfl ended.started
        · exact ended
      have undone : Over juego (Memoria.add
          (if memoria.live process then memoria.signal juego.players else memoria)
          process (memoria.undo process)) ronda winner :=
        told.congr rfl rfl rfl rfl told.started
      exact undone.move inside fun _ => .inr (.inr rfl)
    · cases stepped
  | exitMain =>
    simp only [ShM.step] at stepped
    split at stepped
    · rename_i waited
      obtain rfl := Except.ok.inj stepped
      obtain ⟨eventos, papa, live, place, main⟩ := wait_frame waited
      exact ended.congr eventos papa live place (by simp)
    · cases stepped

/-- Every action of a process is a step of the game or goes unnoticed in it. -/
theorem Playing.step {action : Action} (playing : Playing juego memoria ronda process)
    (located : Located juego memoria process) (stepped : step juego memoria action = .ok after) :
    Simulates juego after ronda ∨ Simulates juego after (ronda.paso juego.reseed) := by
  cases action with
  | start =>
    simp only [ShM.step] at stepped
    split at stepped
    · rename_i first
      obtain rfl := Except.ok.inj stepped
      cases located with
      | starting main chosen semaphores idle =>
        obtain ⟨playing, ready⟩ := playing.start chosen semaphores idle
        exact .inl (.inl ⟨process, playing, .ready ready⟩)
      | ready ready => exact nomatch first.symm.trans ready.main
      | holding holding => exact nomatch first.symm.trans holding.main
      | passing passer passing => exact nomatch first.symm.trans passing.main
    · cases stepped
  | wait other =>
    -- Only the semaphore of the process that the potato is for is open.
    have closed (shut : memoria.wait other other = none) : False := by
      simp only [ShM.step, shut] at stepped
      split at stepped <;> cases stepped
    cases located with
    | starting main chosen semaphores idle =>
      exact (closed (wait_closed semaphores (by simp))).elim
    | ready ready =>
      by_cases same : process = other
      · subst same
        obtain ⟨middle, waited, -, playing, holding⟩ := playing.wait ready
        obtain rfl := Except.ok.inj (stepped.symm.trans waited)
        exact .inl (.inl ⟨process, playing, .holding holding⟩)
      · exact (closed (wait_closed ready.semaphores (by simp [same]))).elim
    | holding holding => exact (closed (wait_closed holding.semaphores (by simp))).elim
    | passing passer passing => exact (closed (wait_closed passing.semaphores (by simp))).elim
  | persona other =>
    simp only [ShM.step] at stepped
    split at stepped
    · rename_i holds
      obtain rfl := Except.ok.inj stepped
      cases located with
      | starting main chosen semaphores idle => exact nomatch holds.symm.trans (idle other)
      | ready ready => exact nomatch holds.symm.trans (ready.idle other)
      | holding holding =>
        by_cases same : other = process
        · subst same
          rcases playing.persona holding with ⟨-, playing, passing⟩ | ended | ⟨playing, passing⟩
          · exact .inl (.inl ⟨_, playing, .passing _ passing⟩)
          · exact .inr (.inr ⟨_, ended⟩)
          · exact .inr (.inl ⟨_, playing, .passing _ passing⟩)
        · exact nomatch holds.symm.trans (holding.idle other same)
      | passing passer passing =>
        by_cases same : other = passer
        · subst same
          exact nomatch holds.symm.trans passing.signals
        · exact nomatch holds.symm.trans (passing.idle other same)
    · cases stepped
  | signal other =>
    cases located with
    | starting main chosen semaphores idle => simp [ShM.step, idle] at stepped
    | ready ready => simp [ShM.step, ready.idle] at stepped
    | holding holding =>
      by_cases same : other = process
      · simp [ShM.step, same, holding.holds] at stepped
      · simp [ShM.step, holding.idle other same] at stepped
    | passing passer passing =>
      by_cases same : other = passer
      · subst same
        obtain ⟨middle, signalled, playing, ready⟩ := playing.signal passing
        obtain rfl := Except.ok.inj (stepped.symm.trans signalled)
        exact .inl (.inl ⟨process, playing, .ready ready⟩)
      · simp [ShM.step, passing.idle other same] at stepped
  | exit other =>
    -- Nobody has left the loop.
    cases located with
    | starting main chosen semaphores idle => simp [ShM.step, idle] at stepped
    | ready ready => simp [ShM.step, ready.idle] at stepped
    | holding holding =>
      by_cases same : other = process
      · simp [ShM.step, same, holding.holds] at stepped
      · simp [ShM.step, holding.idle other same] at stepped
    | passing passer passing =>
      by_cases same : other = passer
      · simp [ShM.step, same, passing.signals] at stepped
      · simp [ShM.step, passing.idle other same] at stepped
  | exitMain =>
    -- The semaphore of `main` is closed.
    have closed (shut : memoria.wait juego.players juego.players = none) : False := by
      simp [ShM.step, shut] at stepped
    cases located with
    | starting main chosen semaphores idle =>
      exact (closed (wait_closed semaphores (by simp))).elim
    | ready ready =>
      have apart : process ≠ juego.players := Nat.ne_of_lt playing.inside
      exact (closed (wait_closed ready.semaphores (by simp [apart]))).elim
    | holding holding => exact (closed (wait_closed holding.semaphores (by simp))).elim
    | passing passer passing => exact (closed (wait_closed passing.semaphores (by simp))).elim

/-- The processes start where the game does. -/
theorem playing_start : Playing juego juego.memoria (juego.ronda 0) juego.first := by
  have everybody : (juego.circle juego.first).filter juego.memoria.live =
      juego.circle juego.first := List.filter_eq_self.mpr fun _ _ => rfl
  obtain ⟨rest, shape⟩ := juego.circle_eq juego.first
  refine ⟨juego.inside, rfl, (Ring.walk_length _ _).symm, rfl, everybody.symm, ?_, ?_⟩
  · show juego.circle juego.first ≠ []
    simp [shape]
  · intro other dead
    cases dead

/-- Whatever the processes do, it is the game up to some step. -/
theorem Reached.simulates (reached : Reached juego memoria) :
    ∃ steps, Simulates juego memoria (juego.ronda steps) := by
  refine reached.invariant (fun memoria => ∃ steps, Simulates juego memoria
    (juego.ronda steps)) ?_ ?_
  · rintro memoria rfl
    exact ⟨0, .inl ⟨_, playing_start, .starting rfl rfl rfl fun _ => rfl⟩⟩
  · rintro memoria action after ⟨steps, ⟨process, playing, located⟩ | ⟨winner, ended⟩⟩ _ stepped
    · rcases playing.step located stepped with same | played
      · exact ⟨steps, same⟩
      · exact ⟨steps + 1, by rwa [juego.ronda_succ]⟩
    · exact ⟨steps, .inr ⟨winner, ended.step stepped⟩⟩

/-- The potato gets to a process, is looked at there, and gets to the next one. -/
theorem Playing.exists_turn (playing : Playing juego memoria ronda process)
    (ready : Ready memoria process) (reached : Reached juego memoria) :
    ∃ after, Reached juego after ∧
      ((memoria.live process = false ∧ Playing juego after ronda (juego.turn process) ∧
        Ready after (juego.turn process)) ∨
      Over juego after (ronda.paso juego.reseed) process ∨
      (Playing juego after (ronda.paso juego.reseed) (juego.turn process) ∧
        Ready after (juego.turn process))) := by
  obtain ⟨middle, waited, live, playing, holding⟩ := playing.wait ready
  have looked : ShM.step juego middle (.persona process) = .ok (middle.persona juego process) := by
    simp [ShM.step, holding.holds]
  have reached : Reached juego (middle.persona juego process) :=
    .next (.next reached trivial waited) trivial looked
  rcases playing.persona holding with ⟨dead, playing, passing⟩ | ended | ⟨playing, passing⟩
  · obtain ⟨after, signalled, playing, ready⟩ := playing.signal passing
    exact ⟨after, .next reached trivial signalled, .inl ⟨live ▸ dead, playing, ready⟩⟩
  · exact ⟨_, reached, .inr (.inl ended)⟩
  · obtain ⟨after, signalled, playing, ready⟩ := playing.signal passing
    exact ⟨after, .next reached trivial signalled, .inr (.inr ⟨playing, ready⟩)⟩

/-- The potato gets to the first in line, however many are out of the game before it. -/
theorem Playing.exists_paso {first : Jugador} {rest : List Jugador} {turns : Nat}
    (playing : Playing juego memoria ronda process) (ready : Ready memoria process)
    (reached : Reached juego memoria) (shape : ronda.line = first :: rest)
    (away : juego.turn^[turns] process = first) :
    ∃ after, Reached juego after ∧
      ((∃ winner, Over juego after (ronda.paso juego.reseed) winner) ∨
      ∃ process, Playing juego after (ronda.paso juego.reseed) process ∧ Ready after process) := by
  -- The induction is on how far away the first in line is.
  induction turns generalizing memoria process with
  | zero =>
    obtain rfl : process = first := away
    have alive : process ∈ (juego.circle process).filter memoria.live := by
      rw [← playing.line, shape]
      exact List.mem_cons_self
    obtain ⟨after, reached, ⟨dead, -⟩ | ended | next⟩ := playing.exists_turn ready reached
    · simp [dead] at alive
    · exact ⟨after, reached, .inl ⟨_, ended⟩⟩
    · exact ⟨after, reached, .inr ⟨_, next⟩⟩
  | succ turns ih =>
    obtain ⟨after, reached, ⟨-, playing, ready⟩ | ended | next⟩ := playing.exists_turn ready reached
    · exact ih playing ready reached away
    · exact ⟨after, reached, .inl ⟨_, ended⟩⟩
    · exact ⟨after, reached, .inr ⟨_, next⟩⟩

/-- The processes can play every step of the game. -/
theorem exists_reached (juego : Juego) (steps : Nat) :
    ∃ memoria, Reached juego memoria ∧
      ((∃ winner, Over juego memoria (juego.ronda steps) winner) ∨
      ∃ process, Playing juego memoria (juego.ronda steps) process ∧ Ready memoria process) := by
  induction steps with
  | zero =>
    -- `main` lets the first process go.
    have started : ShM.step juego juego.memoria .start =
        .ok { juego.memoria.signal juego.first with main := .waiting } := rfl
    have go := (@playing_start juego).start rfl rfl fun _ => rfl
    exact ⟨_, .next (.start rfl) trivial started, .inr ⟨_, go⟩⟩
  | succ steps ih =>
    rw [juego.ronda_succ]
    obtain ⟨memoria, reached, ⟨winner, ended⟩ | ⟨process, playing, ready⟩⟩ := ih
    · rw [Ronda.paso_over ended.nobody]
      exact ⟨memoria, reached, .inl ⟨winner, ended⟩⟩
    · cases shape : (juego.ronda steps).line with
      | nil => exact absurd shape playing.some_
      | cons first rest =>
        have member : first ∈ (juego.circle process).filter memoria.live := by
          rw [← playing.line, shape]
          exact List.mem_cons_self
        obtain ⟨turns, -, away⟩ := Ring.mem_walk.mp (List.mem_filter.mp member).1
        exact playing.exists_paso ready reached shape away

end

end PapaCaliente.ShM
