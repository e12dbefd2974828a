import Nachos.PapaCaliente.PThreads

/-! The threads play the game: the ring of links is the line of players. -/

namespace PapaCaliente.PThreads

/-- What a state of the threads and a state of the game have in common. -/
structure Matches (simulacion : Simulacion) (ronda : Ronda) : Prop where
  eventos : simulacion.eventos = ronda.eventos
  miembros : simulacion.miembros = ronda.line.length
  /-- The last member has a potato that was not replaced. -/
  value : 1 < ronda.line.length → simulacion.value = ronda.value
  distinct : ronda.line.Nodup
  linked : 1 < ronda.line.length →
    Ring.Linked simulacion.siguiente simulacion.anterior ronda.line
  joined : ∀ hilo, simulacion.main = .signalling hilo → simulacion.place hilo = .ended

/-- The place of a thread that has nothing to do. -/
def asleep (juego : Juego) (line : List Jugador) (hilo : Jugador) : Place :=
  if hilo ∈ line ∨ juego.players ≤ hilo then .waiting else .ended

/-- Nobody has the potato yet. -/
structure Starting (juego : Juego) (simulacion : Simulacion) (first : Jugador)
    (rest : List Jugador) : Prop where
  starting : simulacion.main = .starting
  chosen : first = juego.first
  asleep : ∀ hilo, simulacion.place hilo = asleep juego (first :: rest) hilo
  locked : ∀ hilo ∈ first :: rest, simulacion.locked hilo = true

/-- The first in line can go on. -/
structure Ready (juego : Juego) (simulacion : Simulacion) (first : Jugador)
    (rest : List Jugador) : Prop where
  started : simulacion.main ≠ .starting
  asleep : ∀ hilo, simulacion.place hilo = asleep juego (first :: rest) hilo
  unlocked : simulacion.locked first = false
  locked : ∀ hilo ∈ rest, simulacion.locked hilo = true

/-- The first in line has the potato. -/
structure Holding (juego : Juego) (simulacion : Simulacion) (first : Jugador)
    (rest : List Jugador) : Prop where
  started : simulacion.main ≠ .starting
  holding : simulacion.place first = .holding
  asleep : ∀ hilo, hilo ≠ first → simulacion.place hilo = asleep juego (first :: rest) hilo
  locked : ∀ hilo ∈ first :: rest, simulacion.locked hilo = true

/-- A thread resumes the first in line. -/
structure Passing (juego : Juego) (simulacion : Simulacion) (hilo first : Jugador)
    (rest : List Jugador) : Prop where
  started : simulacion.main ≠ .starting
  inside : hilo < juego.players
  signalling : simulacion.place hilo = .signalling (decide (hilo ∉ first :: rest))
  siguiente : simulacion.siguiente hilo = first
  asleep : ∀ other, other ≠ hilo →
    simulacion.place other = PThreads.asleep juego (first :: rest) other
  locked : ∀ hilo ∈ first :: rest, simulacion.locked hilo = true

/-- Everybody has ended. -/
structure Over (juego : Juego) (simulacion : Simulacion) : Prop where
  started : simulacion.main ≠ .starting
  asleep : ∀ hilo, simulacion.place hilo = asleep juego [] hilo

/-- Where the potato is. -/
inductive Located (juego : Juego) (simulacion : Simulacion) : List Jugador → Prop
  | starting {first : Jugador} {rest : List Jugador} :
      Starting juego simulacion first rest → Located juego simulacion (first :: rest)
  | ready {first : Jugador} {rest : List Jugador} :
      Ready juego simulacion first rest → Located juego simulacion (first :: rest)
  | holding {first : Jugador} {rest : List Jugador} :
      Holding juego simulacion first rest → Located juego simulacion (first :: rest)
  | passing {hilo first : Jugador} {rest : List Jugador} :
      Passing juego simulacion hilo first rest → Located juego simulacion (first :: rest)
  | ended : Over juego simulacion → Located juego simulacion []

/-- The threads are where the game is. -/
structure Simulates (juego : Juego) (simulacion : Simulacion) (ronda : Ronda) : Prop where
  agrees : Matches simulacion ronda
  inside : ∀ hilo ∈ ronda.line, hilo < juego.players
  located : Located juego simulacion ronda.line

section

variable {juego : Juego} {simulacion after : Simulacion} {ronda : Ronda} {line : List Jugador}
  {hilo first second : Jugador} {rest others : List Jugador}

/-- A player that waits and has nothing to do is in the line. -/
theorem mem_of_asleep (inside : hilo < juego.players) (waits : asleep juego line hilo = .waiting) :
    hilo ∈ line := by
  by_contra out
  have neither : ¬ (hilo ∈ line ∨ juego.players ≤ hilo) := by
    rintro (member | above)
    · exact out member
    · exact absurd inside (Nat.not_lt.mpr above)
  rw [asleep, if_neg neither] at waits
  cases waits

/-- Who is in the line waits. -/
theorem asleep_of_mem (member : hilo ∈ line) : asleep juego line hilo = .waiting :=
  if_pos (.inl member)

/-- Who has nothing to do does not play. -/
theorem asleep_quiet : asleep juego line hilo ≠ .holding ∧
    ∀ leaves, asleep juego line hilo ≠ .signalling leaves := by
  unfold asleep
  split <;> simp

/-- Only the members of the line matter, not their order. -/
theorem asleep_congr {other : List Jugador} (same : hilo ∈ line ↔ hilo ∈ other) :
    asleep juego line hilo = asleep juego other hilo := by
  simp only [asleep, same]

/-- A thread that is not at its end may move, whatever `main` has joined. -/
theorem Matches.joined_move {place : Place} (matches_ : Matches simulacion ronda)
    (busy : simulacion.place hilo ≠ .ended) {other : Jugador}
    (joins : simulacion.main = .signalling other) :
    Function.update simulacion.place hilo place other = .ended := by
  have ended := matches_.joined other joins
  have apart : other ≠ hilo := fun same => busy (same ▸ ended)
  rw [Function.update_of_ne apart, ended]

/-- `main` hands the potato over. -/
theorem Matches.start (matches_ : Matches simulacion ronda) (shape : ronda.line = first :: rest)
    (starting : Starting juego simulacion first rest) :
    Matches { simulacion.signal juego.first with main := .joining 0 } ronda ∧
      Ready juego { simulacion.signal juego.first with main := .joining 0 } first rest := by
  have distinct := matches_.distinct
  rw [shape] at distinct
  refine ⟨⟨matches_.eventos, matches_.miembros, matches_.value, matches_.distinct,
    matches_.linked, ?_⟩, ⟨?_, starting.asleep, ?_, ?_⟩⟩
  · intro hilo joins
    cases joins
  · intro started
    cases started
  · rw [starting.chosen]
    exact Function.update_self _ _ _
  · intro hilo member
    have apart : hilo ≠ juego.first := by
      rintro rfl
      exact (List.nodup_cons.mp distinct).1 (starting.chosen ▸ member)
    exact (Function.update_of_ne apart _ _).trans
      (starting.locked hilo (List.mem_cons_of_mem _ member))

/-- The first in line takes the potato. -/
theorem Matches.wait (matches_ : Matches simulacion ronda) (ready : Ready juego simulacion first rest) :
    Matches ((simulacion.wait first).move first .holding) ronda ∧
      Holding juego ((simulacion.wait first).move first .holding) first rest := by
  have waits : simulacion.place first = .waiting :=
    (ready.asleep first).trans (asleep_of_mem List.mem_cons_self)
  refine ⟨⟨matches_.eventos, matches_.miembros, matches_.value, matches_.distinct,
    matches_.linked, ?_⟩, ⟨ready.started, Function.update_self _ _ _, ?_, ?_⟩⟩
  · intro hilo joins
    exact matches_.joined_move (by simp [waits]) joins
  · intro hilo apart
    exact (Function.update_of_ne apart _ _).trans (ready.asleep hilo)
  · intro hilo member
    by_cases same : hilo = first
    · rw [same]
      exact Function.update_self _ _ _
    · have later := (List.mem_cons.mp member).resolve_left same
      exact (Function.update_of_ne same _ _).trans (ready.locked hilo later)

/-- A thread resumes the next one. -/
theorem Matches.signal (matches_ : Matches simulacion ronda) (shape : ronda.line = first :: rest)
    (passing : Passing juego simulacion hilo first rest) :
    let place := if decide (hilo ∉ first :: rest) then Place.ended else Place.waiting
    Matches ((simulacion.signal (simulacion.siguiente hilo)).move hilo place) ronda ∧
      Ready juego ((simulacion.signal (simulacion.siguiente hilo)).move hilo place) first rest := by
  have distinct := matches_.distinct
  rw [shape] at distinct
  intro place
  refine ⟨⟨matches_.eventos, matches_.miembros, matches_.value, matches_.distinct,
    matches_.linked, ?_⟩, ⟨passing.started, ?_, ?_, ?_⟩⟩
  · intro other joins
    exact matches_.joined_move (by simp [passing.signalling]) joins
  · intro other
    by_cases same : other = hilo
    · -- Back in the loop it waits, and out of the line it has ended.
      rw [same]
      refine (Function.update_self _ _ _).trans ?_
      by_cases member : hilo ∈ first :: rest
      · rw [asleep_of_mem member]
        simp [member]
      · have neither : ¬ (hilo ∈ first :: rest ∨ juego.players ≤ hilo) := by
          rintro (member' | above)
          · exact member member'
          · exact absurd passing.inside (Nat.not_lt.mpr above)
        rw [asleep, if_neg neither]
        simp [member]
    · exact (Function.update_of_ne same _ _).trans (passing.asleep other same)
  · rw [← passing.siguiente]
    exact Function.update_self _ _ _
  · intro other member
    have apart : other ≠ simulacion.siguiente hilo := by
      rintro rfl
      exact (List.nodup_cons.mp distinct).1 (passing.siguiente ▸ member)
    exact (Function.update_of_ne apart _ _).trans
      (passing.locked other (List.mem_cons_of_mem _ member))

/-- Who is out of the line has ended. -/
theorem asleep_of_not_mem (inside : hilo < juego.players) (out : hilo ∉ line) :
    asleep juego line hilo = .ended := by
  refine if_neg ?_
  rintro (member | above)
  · exact out member
  · exact absurd inside (Nat.not_lt.mpr above)

/-- The last member wins. -/
theorem Matches.win (matches_ : Matches simulacion ronda) (shape : ronda.line = [first])
    (inside : first < juego.players) (holding : Holding juego simulacion first []) :
    Matches (simulacion.simulation juego first) (ronda.paso juego.reseed) ∧
      Over juego (simulacion.simulation juego first) := by
  have one : simulacion.miembros = 1 := by
    rw [matches_.miembros, shape, List.length_singleton]
  have played : simulacion.simulation juego first =
      { simulacion.move first .ended with
        miembros := 0, eventos := simulacion.eventos ++ [.ganador first] } := by
    simp [Simulacion.simulation, Simulacion.move, one]
  rw [played, Ronda.paso_last shape]
  have few : ¬ 1 < ([] : List Jugador).length := by simp
  refine ⟨⟨?_, rfl, fun several => absurd several few, List.nodup_nil,
    fun several => absurd several few, ?_⟩, ⟨holding.started, ?_⟩⟩
  · exact congrArg (· ++ [Evento.ganador first]) matches_.eventos
  · intro other joins
    exact matches_.joined_move (by simp [holding.holding]) joins
  · intro other
    by_cases same : other = first
    · rw [same, asleep_of_not_mem inside List.not_mem_nil]
      exact Function.update_self _ _ _
    · refine (Function.update_of_ne same _ _).trans ((holding.asleep other same).trans ?_)
      exact asleep_congr (by simp [same])

/-- The potato explodes at one of the members, and the others go on without it. -/
theorem Matches.explode (matches_ : Matches simulacion ronda)
    (shape : ronda.line = first :: second :: others) (inside : first < juego.players)
    (explodes : collatz ronda.value = 1)
    (holding : Holding juego simulacion first (second :: others)) :
    Matches (simulacion.simulation juego first) (ronda.paso juego.reseed) ∧
      Passing juego (simulacion.simulation juego first) first second others := by
  have several : 1 < ronda.line.length := by simp [shape]
  have value := matches_.value several
  have linked := matches_.linked several
  have distinct := matches_.distinct
  have miembros : simulacion.miembros = others.length + 2 := by
    rw [matches_.miembros, shape]
    rfl
  rw [shape] at linked distinct
  obtain ⟨out, apart⟩ := List.nodup_cons.mp distinct
  have eventos : simulacion.eventos ++ [.fuera first] = ronda.eventos ++ [.fuera first] := by
    rw [matches_.eventos]
  have joined (other : Jugador) (joins : simulacion.main = .signalling other) :
      Function.update simulacion.place first (.signalling true) other = .ended :=
    matches_.joined_move (by simp [holding.holding]) joins
  have signalling : Function.update simulacion.place first (.signalling true) first =
      .signalling (decide (first ∉ second :: others)) := by
    rw [Function.update_self, decide_eq_true out]
  have awake (hilo : Jugador) (differs : hilo ≠ first) :
      Function.update simulacion.place first (.signalling true) hilo =
        asleep juego (second :: others) hilo := by
    rw [Function.update_of_ne differs, holding.asleep hilo differs]
    exact asleep_congr (by simp [differs])
  have locked (hilo : Jugador) (member : hilo ∈ second :: others) :
      simulacion.locked hilo = true := holding.locked hilo (List.mem_cons_of_mem _ member)
  rw [Ronda.paso_explode shape explodes]
  by_cases last : others = []
  · -- One member is left: the ring and the potato stay as they are.
    have played : simulacion.simulation juego first =
        { simulacion.move first (.signalling true) with
          value := collatz simulacion.value
          miembros := 1
          eventos := simulacion.eventos ++ [.fuera first] } := by
      simp [Simulacion.simulation, miembros, value, explodes, last]
    have few : ¬ 1 < (second :: others).length := by simp [last]
    rw [played]
    exact ⟨⟨eventos, by simp [last], fun more => absurd more few, apart,
      fun more => absurd more few, joined⟩,
      ⟨holding.started, inside, signalling, linked.next_eq, awake, locked⟩⟩
  · -- The neighbours are linked to each other, and the potato is a new one.
    have length := List.length_pos_of_ne_nil last
    have played : simulacion.simulation juego first =
        { simulacion.move first (.signalling true) with
          value := juego.reseed first
          miembros := others.length + 1
          siguiente := Function.update simulacion.siguiente (simulacion.anterior first)
            (simulacion.siguiente first)
          anterior := Function.update simulacion.anterior (simulacion.siguiente first)
            (simulacion.anterior first)
          eventos := simulacion.eventos ++ [.fuera first] } := by
      simp [Simulacion.simulation, miembros, value, explodes, last]
    rw [played]
    refine ⟨⟨eventos, rfl, fun _ => rfl, apart, fun _ => linked.unlink distinct last, joined⟩,
      ⟨holding.started, inside, signalling, ?_, awake, locked⟩⟩
    -- The thread that is out still knows its `siguiente`.
    by_cases same : first = simulacion.anterior first
    · rw [← same]
      exact (Function.update_self _ _ _).trans linked.next_eq
    · exact (Function.update_of_ne same _ _).trans linked.next_eq

/-- The potato does not explode, and goes to the next member. -/
theorem Matches.pass (matches_ : Matches simulacion ronda)
    (shape : ronda.line = first :: second :: others) (inside : first < juego.players)
    (quiet : collatz ronda.value ≠ 1)
    (holding : Holding juego simulacion first (second :: others)) :
    Matches (simulacion.simulation juego first) (ronda.paso juego.reseed) ∧
      Passing juego (simulacion.simulation juego first) first second (others ++ [first]) := by
  have several : 1 < ronda.line.length := by simp [shape]
  have value := matches_.value several
  have linked := matches_.linked several
  have distinct := matches_.distinct
  have miembros : simulacion.miembros = others.length + 2 := by
    rw [matches_.miembros, shape]
    rfl
  rw [shape] at linked distinct
  have moved : (first :: second :: others).Perm (second :: (others ++ [first])) := by
    rw [← List.cons_append]
    exact (List.perm_append_singleton _ _).symm
  have played : simulacion.simulation juego first =
      { simulacion.move first (.signalling false) with value := collatz simulacion.value } := by
    have many : simulacion.miembros ≠ 1 := by omega
    have neither : ¬ (simulacion.miembros = 1 ∨ collatz simulacion.value = 1) := by
      rw [value]
      exact not_or.mpr ⟨many, quiet⟩
    simp only [Simulacion.simulation, if_neg many, if_neg neither]
  rw [played, Ronda.paso_pass shape quiet]
  refine ⟨⟨matches_.eventos, ?_, fun _ => ?_, moved.nodup_iff.mp distinct,
    fun _ => linked.rotate, ?_⟩, ⟨holding.started, inside, ?_, linked.next_eq, ?_, ?_⟩⟩
  · show simulacion.miembros = _
    simp [miembros]
  · exact congrArg collatz value
  · intro other joins
    exact matches_.joined_move (by simp [holding.holding]) joins
  · simp [Simulacion.move]
  · intro other differs
    refine (Function.update_of_ne differs _ _).trans ((holding.asleep other differs).trans ?_)
    exact asleep_congr moved.mem_iff
  · intro hilo member
    exact holding.locked hilo (moved.mem_iff.mpr member)

/-- The thread with the potato makes one step of the game. -/
theorem Simulates.play (simulates : Simulates juego simulacion ronda)
    (shape : ronda.line = first :: rest) (holding : Holding juego simulacion first rest) :
    Simulates juego (simulacion.simulation juego first) (ronda.paso juego.reseed) ∧
      ∀ second others, (ronda.paso juego.reseed).line = second :: others →
        Passing juego (simulacion.simulation juego first) first second others := by
  have agrees := simulates.agrees
  have within := simulates.inside
  rw [shape] at within
  have inside := within first List.mem_cons_self
  cases rest with
  | nil =>
    obtain ⟨agrees, ended⟩ := agrees.win shape inside holding
    have line : (ronda.paso juego.reseed).line = [] := by rw [Ronda.paso_last shape]
    refine ⟨⟨agrees, ?_, line ▸ .ended ended⟩, ?_⟩
    · simp [line]
    · simp [line]
  | cons second others =>
    by_cases explodes : collatz ronda.value = 1
    · obtain ⟨agrees, passing⟩ := agrees.explode shape inside explodes holding
      have line : (ronda.paso juego.reseed).line = second :: others := by
        rw [Ronda.paso_explode shape explodes]
      refine ⟨⟨agrees, ?_, line ▸ .passing passing⟩, ?_⟩
      · rw [line]
        exact fun hilo member => within hilo (List.mem_cons_of_mem _ member)
      · intro one more same
        obtain ⟨rfl, rfl⟩ := List.cons.inj (line.symm.trans same)
        exact passing
    · obtain ⟨agrees, passing⟩ := agrees.pass shape inside explodes holding
      have line : (ronda.paso juego.reseed).line = second :: (others ++ [first]) := by
        rw [Ronda.paso_pass shape explodes]
        rfl
      refine ⟨⟨agrees, ?_, line ▸ .passing passing⟩, ?_⟩
      · rw [line]
        intro hilo member
        refine within hilo ?_
        simp only [List.mem_cons, List.mem_append, List.not_mem_nil, or_false] at member ⊢
        tauto
      · intro one more same
        obtain ⟨rfl, rfl⟩ := List.cons.inj (line.symm.trans same)
        exact passing

/-- Where a thread with nothing to do can be. -/
theorem Simulates.not_ended (simulates : Simulates juego simulacion ronda)
    (member : hilo ∈ ronda.line) : simulacion.place hilo ≠ .ended := by
  intro ended
  have awake : asleep juego ronda.line hilo ≠ .ended := by
    rw [asleep_of_mem member]
    decide
  cases shape : ronda.line with
  | nil => simp [shape] at member
  | cons first rest =>
    have located := simulates.located
    rw [shape] at located awake
    cases located with
    | starting starting => exact awake ((starting.asleep hilo).symm.trans ended)
    | ready ready => exact awake ((ready.asleep hilo).symm.trans ended)
    | holding holding =>
      by_cases same : hilo = first
      · rw [same, holding.holding] at ended
        cases ended
      · exact awake ((holding.asleep hilo same).symm.trans ended)
    | passing passing =>
      rename_i passer
      by_cases same : hilo = passer
      · rw [same, passing.signalling] at ended
        cases ended
      · exact awake ((passing.asleep hilo same).symm.trans ended)

/-- What `main` does at the end changes nothing for a thread in the line. -/
theorem Simulates.main {main : MainPlace} {locked : Jugador → Bool}
    (simulates : Simulates juego simulacion ronda) (before : simulacion.main ≠ .starting)
    (started : main ≠ .starting)
    (joined : ∀ hilo, main = .signalling hilo → simulacion.place hilo = .ended)
    (same : ∀ hilo ∈ ronda.line, locked hilo = simulacion.locked hilo) :
    Simulates juego { simulacion with main, locked } ronda := by
  have agrees := simulates.agrees
  refine ⟨⟨agrees.eventos, agrees.miembros, agrees.value, agrees.distinct, agrees.linked, joined⟩,
    simulates.inside, ?_⟩
  have located := simulates.located
  revert same
  generalize ronda.line = line at located
  intro same
  cases located with
  | starting starting => exact absurd starting.starting before
  | ready ready =>
    refine .ready ⟨started, ready.asleep, ?_, ?_⟩
    · exact (same _ List.mem_cons_self).trans ready.unlocked
    · intro hilo member
      exact (same hilo (List.mem_cons_of_mem _ member)).trans (ready.locked hilo member)
  | holding holding =>
    refine .holding ⟨started, holding.holding, holding.asleep, ?_⟩
    intro hilo member
    exact (same hilo member).trans (holding.locked hilo member)
  | passing passing =>
    refine .passing ⟨started, passing.inside, passing.signalling, passing.siguiente,
      passing.asleep, ?_⟩
    intro hilo member
    exact (same hilo member).trans (passing.locked hilo member)
  | ended ended => exact .ended ⟨started, ended.asleep⟩

/-- A thread that gets its mutex is the first in line. -/
theorem Simulates.wait (simulates : Simulates juego simulacion ronda)
    (stepped : step juego simulacion (.wait hilo) = .ok after) : Simulates juego after ronda := by
  simp only [step] at stepped
  split at stepped
  · rename_i able
    obtain ⟨inside, waits, unlocked⟩ := able
    obtain rfl := Except.ok.inj stepped
    have located := simulates.located
    generalize shape : ronda.line = line at located
    -- Everybody else who waits finds the mutex locked.
    have stuck (asleep : simulacion.place hilo = asleep juego line hilo)
        (locked : hilo ∈ line → simulacion.locked hilo = true) : False := by
      have member := mem_of_asleep inside (asleep.symm.trans waits)
      simp [locked member] at unlocked
    cases located with
    | starting starting => exact (stuck (starting.asleep hilo) (starting.locked hilo)).elim
    | ready ready =>
      rename_i first rest
      by_cases same : hilo = first
      · subst same
        obtain ⟨agrees, holding⟩ := simulates.agrees.wait ready
        exact ⟨agrees, simulates.inside, shape ▸ .holding holding⟩
      · refine (stuck (ready.asleep hilo) fun member => ?_).elim
        exact ready.locked hilo ((List.mem_cons.mp member).resolve_left same)
    | holding holding =>
      rename_i first rest
      by_cases same : hilo = first
      · rw [same, holding.holding] at waits
        cases waits
      · exact (stuck (holding.asleep hilo same) (holding.locked hilo)).elim
    | passing passing =>
      rename_i passer first rest
      by_cases same : hilo = passer
      · rw [same, passing.signalling] at waits
        cases waits
      · exact (stuck (passing.asleep hilo same) (passing.locked hilo)).elim
    | ended ended => exact (stuck (ended.asleep hilo) fun member => nomatch member).elim
  · cases stepped

/-- Every action of a thread is a step of the game or goes unnoticed in it. -/
theorem Simulates.step {action : Action} (simulates : Simulates juego simulacion ronda)
    (stepped : step juego simulacion action = .ok after) :
    Simulates juego after ronda ∨ Simulates juego after (ronda.paso juego.reseed) := by
  have located := simulates.located
  generalize shape : ronda.line = line at located
  have quiet := @asleep_quiet juego line
  cases action with
  | start =>
    simp only [PThreads.step] at stepped
    split at stepped
    · rename_i first
      obtain rfl := Except.ok.inj stepped
      cases located with
      | starting starting =>
        obtain ⟨agrees, ready⟩ := simulates.agrees.start shape starting
        exact .inl ⟨agrees, simulates.inside, shape ▸ .ready ready⟩
      | ready ready => exact absurd first ready.started
      | holding holding => exact absurd first holding.started
      | passing passing => exact absurd first passing.started
      | ended ended => exact absurd first ended.started
    · cases stepped
  | wait hilo => exact .inl (simulates.wait stepped)
  | simulation hilo =>
    simp only [PThreads.step] at stepped
    split at stepped
    · rename_i holds
      obtain rfl := Except.ok.inj stepped
      cases located with
      | starting starting => exact absurd ((starting.asleep hilo).symm.trans holds) quiet.1
      | ready ready => exact absurd ((ready.asleep hilo).symm.trans holds) quiet.1
      | holding holding =>
        rename_i first rest
        by_cases same : hilo = first
        · exact .inr (same ▸ (simulates.play shape holding).1)
        · exact absurd ((holding.asleep hilo same).symm.trans holds) quiet.1
      | passing passing =>
        rename_i passer first rest
        by_cases same : hilo = passer
        · rw [same, passing.signalling] at holds
          cases holds
        · exact absurd ((passing.asleep hilo same).symm.trans holds) quiet.1
      | ended ended => exact absurd ((ended.asleep hilo).symm.trans holds) quiet.1
    · cases stepped
  | signal hilo =>
    simp only [PThreads.step] at stepped
    split at stepped
    · rename_i leaves signals
      obtain rfl := Except.ok.inj stepped
      cases located with
      | starting starting =>
        exact absurd ((starting.asleep hilo).symm.trans signals) (quiet.2 leaves)
      | ready ready => exact absurd ((ready.asleep hilo).symm.trans signals) (quiet.2 leaves)
      | holding holding =>
        rename_i first rest
        by_cases same : hilo = first
        · rw [same, holding.holding] at signals
          cases signals
        · exact absurd ((holding.asleep hilo same).symm.trans signals) (quiet.2 leaves)
      | passing passing =>
        rename_i passer first rest
        by_cases same : hilo = passer
        · subst same
          obtain rfl := Place.signalling.inj (signals.symm.trans passing.signalling)
          obtain ⟨agrees, ready⟩ := simulates.agrees.signal shape passing
          exact .inl ⟨agrees, simulates.inside, shape ▸ .ready ready⟩
        · exact absurd ((passing.asleep hilo same).symm.trans signals) (quiet.2 leaves)
      | ended ended => exact absurd ((ended.asleep hilo).symm.trans signals) (quiet.2 leaves)
    · cases stepped
  | join =>
    simp only [PThreads.step] at stepped
    split at stepped
    · rename_i hilo joining
      split at stepped
      · rename_i ended
        obtain rfl := Except.ok.inj stepped
        refine .inl (simulates.main (by simp [joining]) (by simp) ?_ fun _ _ => rfl)
        intro other same
        rw [← MainPlace.signalling.inj same]
        exact ended
      · cases stepped
    · cases stepped
  | signalJoined =>
    simp only [PThreads.step] at stepped
    split at stepped
    · rename_i hilo joined
      obtain rfl := Except.ok.inj stepped
      have ended := simulates.agrees.joined hilo joined
      refine .inl (simulates.main (by simp [joined]) ?_ ?_ ?_)
      · split <;> simp
      · intro other same
        split at same <;> cases same
      · -- The thread that was joined is not in the line any more.
        intro other member
        refine Function.update_of_ne ?_ _ _
        rintro rfl
        exact simulates.not_ended member ended
    · cases stepped

/-- A remainder that is not negative needs no correction. -/
theorem tmod_nat (number size : Nat) :
    (if (number : Int).tmod size = -1 then size - 1 else ((number : Int).tmod size).toNat) =
      number % size := by
  rw [← Int.ofNat_tmod, if_neg (by omega), Int.toNat_natCast]

/-- The remainder with a sign, corrected once, is a turn on the circle. -/
theorem tmod_turn {size hilo : Nat} {rotacion : Int} (inside : hilo < size)
    (turns : rotacion = -1 ∨ rotacion = 1) :
    (if ((hilo : Int) + rotacion).tmod size = -1 then size - 1
      else (((hilo : Int) + rotacion).tmod size).toNat) =
      Ring.turn size (if rotacion = 1 then 1 else size - 1) hilo := by
  rcases turns with left | right
  · rw [left, if_neg (by decide : ¬ (-1 : Int) = 1)]
    cases hilo with
    | zero =>
      -- Only here the remainder can be negative, and it is not when there is one place.
      have rest : ((0 : Nat) + -1 : Int).tmod size = -((1 % size : Nat) : Int) := by
        rw [Int.ofNat_tmod, ← Int.neg_tmod]
        rfl
      rw [rest, Ring.turn, Nat.zero_add]
      by_cases one : size = 1
      · simp [one]
      · rw [Nat.mod_eq_of_lt (by omega : 1 < size), Nat.mod_eq_of_lt (by omega)]
        exact if_pos rfl
    | succ hilo =>
      have before : ((hilo + 1 : Nat) : Int) + -1 = (hilo : Nat) := by omega
      have whole : hilo + 1 + (size - 1) = hilo + size := by omega
      rw [before, tmod_nat, Ring.turn, whole, Nat.add_mod_right]
  · rw [right, if_pos rfl]
    exact tmod_nat (hilo + 1) size

/-- The first `siguiente` is the next place of the circle. -/
theorem siguiente_eq (inside : hilo < juego.players) :
    juego.siguiente hilo = juego.turn hilo :=
  tmod_turn inside juego.turns

/-- The first `anterior` leads back. -/
theorem anterior_turn (inside : hilo < juego.players) :
    juego.anterior (juego.turn hilo) = hilo := by
  have opposite : -juego.rotacion = -1 ∨ -juego.rotacion = 1 := by
    rcases juego.turns with left | right
    · exact .inr (by omega)
    · exact .inl (by omega)
  have back := tmod_turn (juego.turn_lt hilo) opposite
  rw [← Int.sub_eq_add_neg] at back
  refine Eq.trans back ?_
  refine Ring.turn_turn inside ?_
  have some_ := juego.some_
  unfold Juego.distance
  rcases juego.turns with left | right
  · rw [left, if_neg (by decide), if_pos (by decide)]
    omega
  · rw [right, if_pos rfl, if_neg (by decide)]
    omega

/-- The threads start where the game does. -/
theorem simulates_start : Simulates juego juego.simulacion (juego.ronda 0) := by
  have distinct := juego.circle_nodup juego.inside
  obtain ⟨rest, shape⟩ := juego.circle_eq juego.first
  have linked : Ring.Linked juego.turn juego.anterior (juego.circle juego.first) := by
    refine Ring.linked_walk (juego.lap juego.inside) fun step less => anterior_turn ?_
    exact juego.lt_of_mem_circle juego.inside (Ring.mem_walk.mpr ⟨step, less, rfl⟩)
  have within (hilo : Jugador) (member : hilo ∈ juego.circle juego.first) :
      hilo < juego.players := juego.lt_of_mem_circle juego.inside member
  refine ⟨⟨rfl, ?_, fun _ => rfl, distinct, fun _ => ?_, ?_⟩, within, ?_⟩
  · exact (Ring.walk_length _ _).symm
  · exact linked.congr fun hilo member => siguiente_eq (within hilo member)
  · intro hilo joins
    cases joins
  · show Located juego juego.simulacion (juego.circle juego.first)
    have all (hilo : Jugador) : asleep juego (juego.circle juego.first) hilo = .waiting := by
      refine if_pos ?_
      by_cases there : hilo < juego.players
      · exact .inl (juego.mem_circle juego.inside there)
      · exact .inr (Nat.not_lt.mp there)
    rw [shape] at all ⊢
    exact .starting ⟨rfl, rfl, fun hilo => (all hilo).symm, fun _ _ => rfl⟩

/-- Whatever the threads do, it is the game up to some step. -/
theorem Reached.simulates (reached : Reached juego simulacion) :
    ∃ steps, Simulates juego simulacion (juego.ronda steps) := by
  refine reached.invariant (fun simulacion => ∃ steps, Simulates juego simulacion
    (juego.ronda steps)) ?_ ?_
  · rintro simulacion rfl
    exact ⟨0, simulates_start⟩
  · intro simulacion action after ⟨steps, simulates⟩ _ stepped
    rcases simulates.step stepped with same | played
    · exact ⟨steps, same⟩
    · exact ⟨steps + 1, by rwa [juego.ronda_succ]⟩

/-- The first in line can play, and whoever is first then can go on. -/
theorem Simulates.exists_play (simulates : Simulates juego simulacion ronda)
    (reached : Reached juego simulacion) (shape : ronda.line = first :: rest)
    (ready : Ready juego simulacion first rest) :
    ∃ after, Reached juego after ∧ Simulates juego after (ronda.paso juego.reseed) ∧
      ∀ second others, (ronda.paso juego.reseed).line = second :: others →
        Ready juego after second others := by
  have inside : first < juego.players := simulates.inside first (by simp [shape])
  have waits : simulacion.place first = .waiting :=
    (ready.asleep first).trans (asleep_of_mem List.mem_cons_self)
  -- It takes the potato and looks at it.
  obtain ⟨agrees, holding⟩ := simulates.agrees.wait ready
  have taken : PThreads.step juego simulacion (.wait first) =
      .ok ((simulacion.wait first).move first .holding) :=
    if_pos ⟨inside, waits, ready.unlocked⟩
  have taking : Simulates juego ((simulacion.wait first).move first .holding) ronda :=
    ⟨agrees, simulates.inside, shape ▸ .holding holding⟩
  obtain ⟨playing, passes⟩ := taking.play shape holding
  generalize (simulacion.wait first).move first .holding = middle at taken holding playing passes
  have played : PThreads.step juego middle (.simulation first) =
      .ok (middle.simulation juego first) := by
    simp [PThreads.step, holding.holding]
  have reached : Reached juego (middle.simulation juego first) :=
    .next (.next reached trivial taken) trivial played
  generalize middle.simulation juego first = last at playing passes reached
  cases line : (ronda.paso juego.reseed).line with
  | nil => exact ⟨last, reached, playing, fun second others more => nomatch more⟩
  | cons second others =>
    -- Then it resumes the next one.
    have passing := passes second others line
    obtain ⟨agrees, ready⟩ := playing.agrees.signal line passing
    have signals : ∃ after, PThreads.step juego last (.signal first) = .ok after ∧
        Matches after (ronda.paso juego.reseed) ∧ Ready juego after second others := by
      simp only [PThreads.step, passing.signalling]
      exact ⟨_, rfl, agrees, ready⟩
    obtain ⟨after, signals, agrees, ready⟩ := signals
    refine ⟨after, .next reached trivial signals,
      ⟨agrees, playing.inside, line ▸ .ready ready⟩, ?_⟩
    intro one more same
    obtain ⟨rfl, rfl⟩ := List.cons.inj same
    exact ready

/-- The threads can play every step of the game. -/
theorem exists_reached (juego : Juego) (steps : Nat) :
    ∃ simulacion, Reached juego simulacion ∧ Simulates juego simulacion (juego.ronda steps) ∧
      ∀ first rest, (juego.ronda steps).line = first :: rest →
        Ready juego simulacion first rest := by
  induction steps with
  | zero =>
    -- `main` lets the first thread go.
    have simulates := @simulates_start juego
    obtain ⟨rest, shape⟩ := juego.circle_eq juego.first
    have line : (juego.ronda 0).line = juego.first :: rest := shape
    have located := simulates.located
    rw [line] at located
    cases located with
    | starting starting =>
      obtain ⟨agrees, ready⟩ := simulates.agrees.start line starting
      have started : PThreads.step juego juego.simulacion .start =
          .ok { juego.simulacion.signal juego.first with main := .joining 0 } := rfl
      refine ⟨_, .next (.start rfl) trivial started,
        ⟨agrees, simulates.inside, line ▸ .ready ready⟩, ?_⟩
      intro first others same
      obtain ⟨rfl, rfl⟩ := List.cons.inj (line.symm.trans same)
      exact ready
    | ready ready => exact absurd rfl ready.started
    | holding holding => exact absurd rfl holding.started
    | passing passing => exact absurd rfl passing.started
  | succ steps ih =>
    obtain ⟨simulacion, reached, simulates, ready⟩ := ih
    rw [juego.ronda_succ]
    cases line : (juego.ronda steps).line with
    | nil =>
      -- Nothing happens after the end.
      rw [Ronda.paso_over line]
      exact ⟨simulacion, reached, simulates, fun first rest more => nomatch line.symm.trans more⟩
    | cons first rest => exact simulates.exists_play reached line (ready first rest line)

end

end PapaCaliente.PThreads
