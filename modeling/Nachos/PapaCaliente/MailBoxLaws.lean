import Nachos.PapaCaliente.MailBox

/-! There is one potato until somebody wins, and it knows how many players are left. -/

namespace PapaCaliente.MailBox

/-- The potato that a process holds. -/
def Place.papa : Place → Option Papa
  | .holding papa | .passing papa | .won papa => some papa
  | .receiving | .left _ | .ended => none

/-- The potato that `main` holds. -/
def MainPlace.papa : MainPlace → Option Papa
  | .starting papa => some papa
  | .waiting | .ended => none

/-- All potatoes: in the hands of `main`, in the queue, and in the hands of the players. -/
def Ronda.papas (game : Game) (ronda : Ronda) : List Papa :=
  ronda.main.papa.toList ++ (ronda.queue.getD []).map Prod.snd ++
    (List.range' 1 game.players).filterMap fun process => (ronda.place process).papa

/-- The players that are still in the game. -/
def Ronda.alive (game : Game) (ronda : Ronda) : Finset Jugador :=
  game.jugadores.filter fun process => ronda.live process

/-- Where the only potato is. -/
inductive Located (game : Game) (ronda : Ronda) (papa : Papa) : Prop
  /-- `main` has not sent it yet. -/
  | main : ronda.main = .starting papa → ronda.queue = some [] →
      (∀ process, ronda.place process = .receiving) → Located game ronda papa
  /-- It is on its way to a player. -/
  | queued (process : Jugador) : process ∈ game.jugadores → ronda.main = .waiting →
      ronda.queue = some [(process, papa)] →
      (∀ other, ronda.place other = .receiving) → Located game ronda papa
  /-- A player has it. -/
  | held (process : Jugador) : process ∈ game.jugadores → ronda.main = .waiting →
      ronda.queue = some [] →
      (ronda.place process = .holding papa ∨ ronda.place process = .passing papa) →
      (∀ other, other ≠ process → ronda.place other = .receiving) → Located game ronda papa

/-- The game goes on. -/
structure InPlay (game : Game) (ronda : Ronda) (papa : Papa) : Prop where
  nobody : ronda.winners = []
  located : Located game ronda papa
  players : papa.players = (ronda.alive game).card
  some_ : 1 ≤ (ronda.alive game).card

/-- A process has won, and never looks at a potato again. -/
structure Decided (game : Game) (ronda : Ronda) (winner : Jugador) : Prop where
  winners : ronda.winners = [winner]
  dead : ∀ process ∈ game.jugadores, process ≠ winner → ronda.live process = false
  done : (∃ papa, ronda.place winner = .won papa ∨ ronda.place winner = .left papa) ∨
    ronda.place winner = .ended
  outside : ∀ process, process ∉ game.jugadores → ronda.place process = .receiving

/-- The invariant of all runs. -/
def Inv (game : Game) (ronda : Ronda) : Prop :=
  (∃ papa, InPlay game ronda papa) ∨ ∃ winner, Decided game ronda winner

section

variable {game : Game} {ronda after : Ronda} {papa : Papa} {process : Jugador}

/-- The players have the numbers from 1 on. -/
theorem Game.mem_jugadores {process : Nat} :
    process ∈ game.jugadores ↔ 1 ≤ process ∧ process ≤ game.players := Finset.mem_Icc

/-- The potato goes to a player again. -/
theorem Game.nextProcess_mem (member : process ∈ game.jugadores) :
    game.nextProcess process ∈ game.jugadores := by
  have some_ := game.inhabited
  have turns := game.turns
  rw [Game.mem_jugadores] at member ⊢
  by_cases low : (process : Int) + game.rotacion = 0
  · rw [Game.nextProcess, if_pos low]
    omega
  · by_cases high : (process : Int) + game.rotacion = game.players + 1
    · rw [Game.nextProcess, if_neg low, if_pos high]
      omega
    · rw [Game.nextProcess, if_neg low, if_neg high]
      omega

/-- Who has the potato is the only process that can act. -/
theorem Located.holder (located : Located game ronda papa) {other : Papa}
    (has : ronda.place process = .holding other ∨ ronda.place process = .passing other) :
    other = papa ∧ process ∈ game.jugadores ∧ ronda.main = .waiting ∧ ronda.queue = some [] ∧
      ∀ another, another ≠ process → ronda.place another = .receiving := by
  cases located with
  | main _ _ idle => simp [idle] at has
  | queued _ _ _ _ idle => simp [idle] at has
  | held holder member main queue place others =>
    obtain rfl : process = holder := by
      by_contra differ
      simp [others process differ] at has
    refine ⟨?_, member, main, queue, others⟩
    rcases place with here | here <;> rcases has with there | there <;>
      simp_all

/-- No player has left the loop while the game goes on. -/
theorem Located.inLoop (located : Located game ronda papa) (other : Papa) :
    ronda.place process ≠ .won other ∧ ronda.place process ≠ .left other := by
  cases located with
  | main _ _ idle => simp [idle]
  | queued _ _ _ _ idle => simp [idle]
  | held holder member main queue place others =>
    by_cases same : process = holder
    · subst same
      rcases place with here | here <;> simp [here]
    · simp [others process same]

/-- A process that moves is at its new place. -/
@[simp] theorem Ronda.move_place_self {place : Place} :
    (ronda.move process place).place process = place := if_pos rfl

/-- The others stay where they are. -/
theorem Ronda.move_place_other {place : Place} {other : Jugador} (differ : other ≠ process) :
    (ronda.move process place).place other = ronda.place other := if_neg differ

/-- Only the queue changes when a message is sent. -/
@[simp] theorem Ronda.send_frame {type : Nat} :
    (ronda.send type papa).1.place = ronda.place ∧ (ronda.send type papa).1.live = ronda.live ∧
      (ronda.send type papa).1.winners = ronda.winners ∧
      (ronda.send type papa).1.main = ronda.main := by
  cases queue : ronda.queue <;> simp [Ronda.send, queue]

/-- Only the queue changes when a message is received. -/
theorem Ronda.recv_frame {type : Nat} {got : Papa} (received : ronda.recv type = some (got, after)) :
    after.place = ronda.place ∧ after.live = ronda.live ∧ after.winners = ronda.winners ∧
      after.main = ronda.main := by
  unfold Ronda.recv at received
  cases queue : ronda.queue with
  | none =>
    simp only [queue, Option.some.injEq, Prod.mk.injEq] at received
    simp [← received.2]
  | some messages =>
    simp only [queue, Option.map_eq_some_iff, Prod.mk.injEq] at received
    obtain ⟨message, -, -, rfl⟩ := received
    simp

/-- Nobody receives from a queue without a message. -/
theorem Ronda.recv_empty (queue : ronda.queue = some []) (type : Nat) :
    ronda.recv type = none := by
  simp [Ronda.recv, queue]

/-- The only message goes to the process of its type. -/
theorem Ronda.recv_single {type other : Nat} (queue : ronda.queue = some [(type, papa)]) :
    ronda.recv other =
      if type = other then some (papa, { ronda with queue := some [] }) else none := by
  by_cases same : type = other
  · simp [Ronda.recv, queue, same]
  · simp [Ronda.recv, queue, same]

/-- The game goes on with as many players as before when only the potato moves. -/
theorem InPlay.relocate {other : Papa} (inPlay : InPlay game ronda papa)
    (located : Located game after other) (players : other.players = papa.players)
    (winners : after.winners = ronda.winners) (live : after.live = ronda.live) :
    InPlay game after other where
  nobody := winners.trans inPlay.nobody
  located := located
  players := by
    rw [players, inPlay.players]
    simp only [Ronda.alive, live]
  some_ := by
    have some_ := inPlay.some_
    simp only [Ronda.alive, live] at some_ ⊢
    exact some_

/-- `main` hands the potato over. -/
theorem InPlay.start {first : Jugador} (inPlay : InPlay game ronda papa)
    (stepped : step game ronda (.start first) = .ok after) : InPlay game after papa := by
  cases located : inPlay.located with
  | main main queue idle =>
    simp only [step, main] at stepped
    split at stepped
    · rename_i member
      obtain rfl := Except.ok.inj stepped
      have sent : (ronda.send first papa).1.queue = some [(first, papa)] := by
        simp [Ronda.send, queue]
      refine inPlay.relocate ?_ rfl (by simp) (by simp)
      exact .queued first member rfl sent (by simpa using idle)
    · cases stepped
  -- The potato has left the hands of `main` before.
  | queued holder member main queue idle => simp [step, main] at stepped
  | held holder member main queue place others => simp [step, main] at stepped

/-- A player gets the potato. -/
theorem InPlay.recv (inPlay : InPlay game ronda papa)
    (stepped : step game ronda (.recv process) = .ok after) : InPlay game after papa := by
  simp only [step] at stepped
  split at stepped
  · rename_i able
    cases located : inPlay.located with
    | main main queue idle => simp [Ronda.recv_empty queue] at stepped
    | held holder member main queue place others => simp [Ronda.recv_empty queue] at stepped
    | queued holder member main queue idle =>
      rw [Ronda.recv_single queue] at stepped
      by_cases same : holder = process
      · -- The message is for this player, who alone stops waiting.
        simp only [if_pos same] at stepped
        obtain rfl := Except.ok.inj stepped
        refine inPlay.relocate ?_ rfl rfl rfl
        refine .held process able.1 main rfl (.inl Ronda.move_place_self) ?_
        intro other differ
        rw [Ronda.move_place_other differ]
        exact idle other
      · simp [if_neg same] at stepped
  · cases stepped

/-- A player sends the potato to its neighbour. -/
theorem InPlay.send (inPlay : InPlay game ronda papa)
    (stepped : step game ronda (.send process) = .ok after) : InPlay game after papa := by
  cases place : ronda.place process with
  | passing other =>
    obtain ⟨rfl, member, main, queue, others⟩ := inPlay.located.holder (.inr place)
    have sent : ronda.send (game.nextProcess process) other =
        ({ ronda with queue := some [(game.nextProcess process, other)] }, true) := by
      simp [Ronda.send, queue]
    simp only [step, place, sent, Bool.or_true, if_true] at stepped
    obtain rfl := Except.ok.inj stepped
    refine inPlay.relocate ?_ rfl rfl rfl
    refine .queued _ (Game.nextProcess_mem member) main rfl ?_
    intro another
    by_cases same : another = process
    · rw [same, Ronda.move_place_self]
    · rw [Ronda.move_place_other same]
      exact others another same
  -- Nobody has won yet, and no other place sends.
  | won other => exact absurd place (inPlay.located.inLoop other).1
  | receiving => simp [step, place] at stepped
  | holding other => simp [step, place] at stepped
  | left other => simp [step, place] at stepped
  | ended => simp [step, place] at stepped

/-- When one player is left, every other one is out of the game. -/
theorem Ronda.dead_of_card (one : (ronda.alive game).card = 1) (member : process ∈ game.jugadores)
    (live : ronda.live process = true) :
    ∀ other ∈ game.jugadores, other ≠ process → ronda.live other = false := by
  obtain ⟨only, alone⟩ := Finset.card_eq_one.mp one
  have alive : ∀ other, (other ∈ game.jugadores ∧ ronda.live other = true) ↔ other = only := by
    intro other
    have same := Finset.mem_singleton (a := only) (b := other)
    rw [← alone, Ronda.alive, Finset.mem_filter] at same
    exact same
  intro other player differ
  rw [← Bool.not_eq_true]
  intro lives
  exact differ (((alive other).mp ⟨player, lives⟩).trans ((alive process).mp ⟨member, live⟩).symm)

/-- Where the potato is does not depend on who is alive. -/
theorem Located.congr (located : Located game ronda papa) (main : after.main = ronda.main)
    (queue : after.queue = ronda.queue) (place : after.place = ronda.place) :
    Located game after papa := by
  cases located with
  | main before empty idle =>
    exact .main (main.trans before) (queue.trans empty) (place ▸ idle)
  | queued holder member before single idle =>
    exact .queued holder member (main.trans before) (queue.trans single) (place ▸ idle)
  | held holder member before empty here others =>
    exact .held holder member (main.trans before) (queue.trans empty) (place ▸ here)
      (place ▸ others)

/-- A player drops out, and both counts go down by one. -/
theorem InPlay.explode {other : Papa} (inPlay : InPlay game ronda papa)
    (member : process ∈ game.jugadores) (live : ronda.live process = true)
    (several : papa.players ≠ 1) (located : Located game after other)
    (players : other.players = papa.players - 1) (winners : after.winners = ronda.winners)
    (dead : after.live = fun other => if other = process then false else ronda.live other) :
    InPlay game after other := by
  have fewer : after.alive game = (ronda.alive game).erase process := by
    ext another
    by_cases same : another = process <;> simp [Ronda.alive, dead, same]
  have alive : process ∈ ronda.alive game := Finset.mem_filter.mpr ⟨member, live⟩
  have card : (after.alive game).card = (ronda.alive game).card - 1 := by
    rw [fewer, Finset.card_erase_of_mem alive]
  have before := inPlay.players
  have some_ := inPlay.some_
  exact ⟨winners.trans inPlay.nobody, located, by omega, by omega⟩

/-- A player looks at the potato: it passes it on, drops out, or wins. -/
theorem InPlay.act {random : SSize} (inPlay : InPlay game ronda papa)
    (stepped : step game ronda (.act process random) = .ok after) : Inv game after := by
  cases place : ronda.place process with
  | holding other =>
    obtain ⟨rfl, member, main, queue, others⟩ := inPlay.located.holder (.inl place)
    simp only [step, place] at stepped
    obtain rfl := Except.ok.inj stepped
    -- Wherever the potato ends up, this player still has it.
    have passing (potato : Papa) : Located game (ronda.move process (.passing potato)) potato := by
      refine .held process member main queue (.inr Ronda.move_place_self) ?_
      intro another differ
      rw [Ronda.move_place_other differ]
      exact others another differ
    unfold Ronda.act
    by_cases live : ronda.live process = true
    · rw [if_pos live]
      by_cases one : other.players = 1
      · -- The player wins, and the number on the potato says that nobody else is alive.
        rw [if_pos one]
        have dead := Ronda.dead_of_card (inPlay.players.symm.trans one) member live
        refine .inr ⟨process, ?_, dead, ?_, ?_⟩
        · simp [inPlay.nobody]
        · exact .inl ⟨_, .inl Ronda.move_place_self⟩
        · intro another outside
          have differ : another ≠ process := fun same => outside (same ▸ member)
          exact (Ronda.move_place_other differ).trans (others another differ)
      · rw [if_neg one]
        dsimp only
        split
        · -- It explodes, and the player is out of the game.
          have located := (passing { other with players := other.players - 1, value := random })
          exact .inl ⟨_, inPlay.explode member live one (located.congr rfl rfl rfl) rfl rfl rfl⟩
        · exact .inl ⟨_, inPlay.relocate (passing _) rfl rfl rfl⟩
    · rw [if_neg live]
      exact .inl ⟨_, inPlay.relocate (passing _) rfl rfl rfl⟩
  | passing other => simp [step, place] at stepped
  | won other => simp [step, place] at stepped
  | receiving => simp [step, place] at stepped
  | left other => simp [step, place] at stepped
  | ended => simp [step, place] at stepped

/-- A step of a game that nobody has won keeps the potato, unless it ends with a winner. -/
theorem InPlay.step {action : Action} (inPlay : InPlay game ronda papa)
    (stepped : step game ronda action = .ok after) : Inv game after := by
  cases action with
  | start first => exact .inl ⟨_, inPlay.start stepped⟩
  | recv process => exact .inl ⟨_, inPlay.recv stepped⟩
  | act process random => exact inPlay.act stepped
  | send process => exact .inl ⟨_, inPlay.send stepped⟩
  | finish process =>
    -- Nobody has left the loop.
    cases place : ronda.place process with
    | left other => exact absurd place (inPlay.located.inLoop other).2
    | receiving => simp [MailBox.step, place] at stepped
    | holding other => simp [MailBox.step, place] at stepped
    | passing other => simp [MailBox.step, place] at stepped
    | won other => simp [MailBox.step, place] at stepped
    | ended => simp [MailBox.step, place] at stepped
  | finishMain =>
    -- No message is for `main`.
    cases located : inPlay.located with
    | main main queue idle => simp [MailBox.step, main] at stepped
    | queued holder member main queue idle =>
      have differ : holder ≠ game.players + 1 := by
        intro same
        have range := Game.mem_jugadores.mp (same ▸ member)
        omega
      simp [MailBox.step, main, Ronda.recv_single queue, if_neg differ] at stepped
    | held holder member main queue place others =>
      simp [MailBox.step, main, Ronda.recv_empty queue] at stepped

variable {winner : Jugador}

/-- What happens to the queue and to `main` does not matter once there is a winner. -/
theorem Decided.congr (decided : Decided game ronda winner)
    (winners : after.winners = ronda.winners) (live : after.live = ronda.live)
    (place : after.place = ronda.place) : Decided game after winner where
  winners := winners.trans decided.winners
  dead := live ▸ decided.dead
  done := place ▸ decided.done
  outside := place ▸ decided.outside

/-- A player may go anywhere, but the winner does not go back into the loop. -/
theorem Decided.move {place : Place} (decided : Decided game ronda winner)
    (inside : ronda.place process ≠ .receiving ∨ process ∈ game.jugadores)
    (done : process = winner →
      (∃ papa, place = .won papa ∨ place = .left papa) ∨ place = .ended) :
    Decided game (ronda.move process place) winner where
  winners := decided.winners
  dead := decided.dead
  done := by
    by_cases same : winner = process
    · rw [same, Ronda.move_place_self]
      exact done same.symm
    · rw [Ronda.move_place_other same]
      exact decided.done
  outside := by
    intro other apart
    have differ : other ≠ process := by
      rintro rfl
      exact inside.elim (fun busy => busy (decided.outside _ apart)) apart
    exact (Ronda.move_place_other differ).trans (decided.outside other apart)

/-- The winner waits for no potato, and holds none that it has still to look at. -/
theorem Decided.not_playing (decided : Decided game ronda winner) :
    ronda.place winner ≠ .receiving ∧ (∀ papa, ronda.place winner ≠ .holding papa) ∧
      ∀ papa, ronda.place winner ≠ .passing papa := by
  rcases decided.done with ⟨papa, place | place⟩ | place <;> simp [place]

/-- Nobody else wins after that, and nobody comes back into the game. -/
theorem Decided.step {action : Action} (decided : Decided game ronda winner)
    (stepped : step game ronda action = .ok after) : Decided game after winner := by
  obtain ⟨notReceiving, notHolding, notPassing⟩ := decided.not_playing
  cases action with
  | start first =>
    simp only [MailBox.step] at stepped
    split at stepped
    · split at stepped
      · obtain rfl := Except.ok.inj stepped
        exact decided.congr (by simp) (by simp) (by simp)
      · cases stepped
    · cases stepped
  | recv process =>
    simp only [MailBox.step] at stepped
    split at stepped
    · rename_i able
      split at stepped
      · rename_i received
        obtain rfl := Except.ok.inj stepped
        obtain ⟨place, live, winners, -⟩ := Ronda.recv_frame received
        refine (decided.congr winners live place).move (.inr able.1) ?_
        rintro rfl
        exact absurd able.2 notReceiving
      · cases stepped
    · cases stepped
  | act process random =>
    simp only [MailBox.step] at stepped
    split at stepped
    · rename_i papa place
      obtain rfl := Except.ok.inj stepped
      have differ : process ≠ winner := by
        rintro rfl
        exact notHolding papa place
      -- Only the winner is alive, so this player just passes the potato on.
      have member : process ∈ game.jugadores := by
        by_contra apart
        simp [decided.outside process apart] at place
      rw [Ronda.act, decided.dead process member differ, if_neg Bool.false_ne_true]
      exact decided.move (.inr member) fun same => absurd same differ
    · cases stepped
  | send process =>
    simp only [MailBox.step] at stepped
    split at stepped
    · rename_i papa place
      obtain rfl := Except.ok.inj stepped
      refine (decided.congr (by simp) (by simp) (by simp)).move (.inl (by simp [place])) ?_
      rintro rfl
      exact absurd place (notPassing papa)
    · rename_i papa place
      obtain rfl := Except.ok.inj stepped
      refine (decided.congr (by simp) (by simp) (by simp)).move (.inl (by simp [place])) ?_
      exact fun _ => .inl ⟨papa, .inr rfl⟩
    · cases stepped
  | finish process =>
    simp only [MailBox.step] at stepped
    split at stepped
    · rename_i papa place
      obtain rfl := Except.ok.inj stepped
      refine Decided.move (decided.congr ?_ ?_ ?_) (.inl ?_) fun _ => .inr rfl
      all_goals
        by_cases live : ronda.live process = true <;>
          simp [Ronda.removeQueue, live, place]
    · cases stepped
  | finishMain =>
    simp only [MailBox.step] at stepped
    split at stepped
    · rename_i received
      obtain rfl := Except.ok.inj stepped
      obtain ⟨place, live, winners, -⟩ := Ronda.recv_frame received
      exact decided.congr winners live place
    · cases stepped

/-- A game starts with the potato in the hands of `main`, and with everybody alive. -/
theorem inPlay_start (value : SSize) :
    InPlay game (game.start value) ⟨game.players, value, game.rotacion⟩ := by
  have all : (game.start value).alive game = game.jugadores := by
    simp [Ronda.alive, Game.start]
  have card : game.jugadores.card = game.players := by
    simp [Game.jugadores]
  refine ⟨rfl, .main rfl rfl fun _ => rfl, ?_, ?_⟩
  · rw [all, card]
  · rw [all, card]
    exact game.inhabited

/-- When only one element of a list has something, that is all there is. -/
theorem filterMap_single (has : Jugador → Option Papa) {processes : List Jugador}
    (distinct : processes.Nodup) (member : process ∈ processes) (mine : has process = some papa)
    (others : ∀ other ∈ processes, other ≠ process → has other = none) :
    processes.filterMap has = [papa] := by
  induction processes with
  | nil => cases member
  | cons head rest ih =>
    obtain ⟨fresh, distinct⟩ := List.nodup_cons.mp distinct
    rcases List.mem_cons.mp member with rfl | later
    · -- Nothing comes after the only element that has something.
      have nothing : rest.filterMap has = [] := by
        rw [List.filterMap_eq_nil_iff]
        intro other inside
        exact others other (List.mem_cons_of_mem _ inside) fun same => fresh (same ▸ inside)
      rw [List.filterMap_cons_some mine, nothing]
    · have none_ : has head = none :=
        others head List.mem_cons_self fun same => fresh (same ▸ later)
      rw [List.filterMap_cons_none none_]
      exact ih distinct later fun other inside => others other (List.mem_cons_of_mem _ inside)

/-- The potato that is somewhere is the only one there is. -/
theorem Located.papas (located : Located game ronda papa) : ronda.papas game = [papa] := by
  unfold Ronda.papas
  cases located with
  | main main queue idle => simp [main, queue, idle, MainPlace.papa, Place.papa]
  | queued holder member main queue idle =>
    simp [main, queue, idle, MainPlace.papa, Place.papa]
  | held holder member main queue place others =>
    have inside : holder ∈ List.range' 1 game.players := by
      rw [List.mem_range'_1]
      have range := Game.mem_jugadores.mp member
      omega
    have mine : (ronda.place holder).papa = some papa := by
      rcases place with place | place <;> rw [place] <;> rfl
    have single := filterMap_single (fun process => (ronda.place process).papa)
      List.nodup_range' inside mine fun other _ differ => by rw [others other differ]; rfl
    simp [main, queue, MainPlace.papa, single]

/--
There is one potato, in whose count exactly the players in the game are, until one wins.

At most one process wins, and every other one is out of the game then.
-/
theorem one_papa
    (reached : Runs.Reachable (step game) (fun state => ∃ value, state = game.start value)
      (fun _ _ => True) ronda) :
    (ronda.winners = [] → ∃ papa, ronda.papas game = [papa] ∧
      papa.players = (ronda.alive game).card ∧ 1 ≤ papa.players) ∧
    ronda.winners.length ≤ 1 ∧
    ∀ winner ∈ ronda.winners, ∀ process ∈ game.jugadores, process ≠ winner →
      ronda.live process = false := by
  have inv : Inv game ronda := by
    refine reached.invariant (Inv game) ?_ ?_
    · rintro state ⟨value, rfl⟩
      exact .inl ⟨_, inPlay_start value⟩
    · intro state action after inv _ stepped
      rcases inv with ⟨papa, inPlay⟩ | ⟨winner, decided⟩
      · exact inPlay.step stepped
      · exact .inr ⟨winner, decided.step stepped⟩
  rcases inv with ⟨papa, inPlay⟩ | ⟨winner, decided⟩
  · refine ⟨fun _ => ⟨papa, inPlay.located.papas, inPlay.players, ?_⟩, ?_, ?_⟩
    · rw [inPlay.players]
      exact inPlay.some_
    · simp [inPlay.nobody]
    · simp [inPlay.nobody]
  · rw [decided.winners]
    refine ⟨fun nobody => absurd nobody (List.cons_ne_nil _ _), Nat.le_refl 1, ?_⟩
    intro other member
    rw [List.mem_singleton.mp member]
    exact decided.dead

end

/-- Two players to the right. -/
def dos : Game := ⟨2, 1, by decide, .inr rfl⟩

/-- The first player drops out, and the second one wins. -/
def partida : List Action :=
  [.start 1, .recv 1, .act 1 7, .send 1, .recv 2, .act 2 0]

/-- In a finished game of two the first player is dead. -/
theorem one_papa_dos : ∃ ronda, Runs.run (step dos) (dos.start 2) partida = .ok ronda ∧
    ronda.winners = [2] ∧ ronda.live 1 = false := by
  have passed : Runs.runsTo (step dos) (dos.start 2) partida
      (fun ronda => ronda.winners == [2]) = true := by decide
  obtain ⟨ronda, ran, check⟩ := Runs.exists_of_runsTo passed
  have won : ronda.winners = [2] := eq_of_beq check
  refine ⟨ronda, ran, won, ?_⟩
  have start : Runs.Reachable (step dos) (fun state => ∃ value, state = dos.start value)
      (fun _ _ => True) (dos.start 2) := .start ⟨2, rfl⟩
  have reached := start.extend (Runs.guarded_of_forall (fun _ _ _ => trivial) _) ran
  exact (one_papa reached).2.2 2 (by simp [won]) 1 (by decide) (by decide)

end PapaCaliente.MailBox
