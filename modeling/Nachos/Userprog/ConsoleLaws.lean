import Nachos.Userprog.Console

/-! `ConsoleTest` echoes what is typed, in any interleaving with the interrupts of the console. -/

namespace Nachos.ConsoleTest

open Threads

variable {names : Names} {main thread : Thread} {client next : Client Console Phase}
  {act : Act Unit Unit Signal} {phase : Phase} {place : Place} {console : Console}
  {input : List Byte} {ch : Byte} {fault : Fault}

/-- The console with a character that has been put. -/
def written (console : Console) (ch : Byte) : Console :=
  { console with
    display := console.display ++ [ch]
    putBusy := true
    scheduled := console.scheduled + 1 }

/-- A character is put only while the console is not busy. -/
theorem putChar_eq_ok {after : Console} (accepted : console.putChar ch = .ok after) :
    console.putBusy = false ∧ after = written console ch := by
  unfold Console.putChar at accepted
  split at accepted
  · exact ⟨‹_›, (Except.ok.inj accepted).symm⟩
  · cases accepted

/-- The statements of the routine. -/
inductive Does (names : Names) (main thread : Thread) :
    Act Unit Unit Signal → Phase → Console → Outcome Console Phase → Prop
  | enter {console : Console} (chosen : thread = main) :
      Does names main thread (.enter ()) .idle console ⟨console, none, .arrive⟩
  | arrive {console : Console} :
      Does names main thread (.go ()) .arrive console ⟨console, some (.p names.readAvail), .get⟩
  | get {console : Console} :
      Does names main thread (.go ()) .get console
        ⟨{ console with incoming := eof }, none, .put console.incoming⟩
  | put {console : Console} {ch : Byte} (ready : console.putBusy = false) :
      Does names main thread (.go ()) (.put ch) console ⟨written console ch, none, .wait ch⟩
  | wait {console : Console} {ch : Byte} :
      Does names main thread (.go ()) (.wait ch) console
        ⟨console, some (.p names.writeDone), .check ch⟩
  | check {console : Console} {ch : Byte} :
      Does names main thread (.go ()) (.check ch) console
        ⟨console, none, if ch = q then .quit else .arrive⟩

/-- Every statement is one of these. -/
theorem does_of_statement {outcome : Outcome Console Phase}
    (did : (consoleTest names main).statement act thread phase console = .ok outcome) :
    Does names main thread act phase console outcome := by
  cases act with
  | enter entry =>
    cases phase with
    | idle =>
      -- Only the main thread gets as far as the loop.
      change enter main thread () console = .ok outcome at did
      unfold enter at did
      split at did
      · obtain rfl := Except.ok.inj did
        exact .enter ‹_›
      · cases did
    | arrive | get | put | wait | check | quit => cases did
  | go choice =>
    cases phase with
    | idle | quit => cases did
    | arrive =>
      obtain rfl := Except.ok.inj did
      exact .arrive
    | get =>
      obtain rfl := Except.ok.inj did
      exact .get
    | put ch =>
      obtain ⟨after, accepted, rest⟩ := Runs.bind_eq_ok.mp did
      obtain ⟨ready, rfl⟩ := putChar_eq_ok accepted
      obtain rfl := Except.ok.inj rest
      exact .put ready
    | wait ch =>
      obtain rfl := Except.ok.inj did
      exact .wait
    | check ch =>
      obtain rfl := Except.ok.inj did
      exact .check
  | device | other => cases did

/-- What the handlers of the console do. -/
inductive Handles (names : Names) (console : Console) : Signal → Console → Option Nat → Prop
  /-- Something is buffered, or nothing is there to be read. -/
  | idle {pollFile : Bool} : Handles names console (.consoleReadPoll pollFile) console none
  | poll {c : Byte} {rest : List Byte} {pollFile : Bool} (empty : console.incoming = eof)
      (typed : console.keyboard = c :: rest) :
      Handles names console (.consoleReadPoll pollFile)
        { console with
          keyboard := rest
          incoming := c
          numConsoleCharsRead := console.numConsoleCharsRead + 1 } (some names.readAvail)
  | writeDone (scheduled : 0 < console.scheduled) :
      Handles names console .consoleWriteDone
        { console with
          putBusy := false
          scheduled := console.scheduled - 1
          numConsoleCharsWritten := console.numConsoleCharsWritten + 1 } (some names.writeDone)

/-- Every interrupt is handled so. -/
theorem handles_of_interrupt {signal : Signal} {after : Console} {raised : Option Nat}
    (handled : interrupt names signal console = .ok (after, raised)) :
    Handles names console signal after raised := by
  cases signal with
  | consoleReadPoll pollFile =>
    obtain ⟨⟨polled, came⟩, checked, rest⟩ := Runs.bind_eq_ok.mp handled
    obtain ⟨rfl, rfl⟩ := Prod.mk.inj (Except.ok.inj rest)
    unfold Console.checkCharAvail at checked
    split at checked
    · obtain ⟨rfl, rfl⟩ := Prod.mk.inj (Except.ok.inj checked)
      exact .idle
    · rename_i open_
      split at checked
      · cases checked
      · rename_i c rest typed
        obtain ⟨rfl, rfl⟩ := Prod.mk.inj (Except.ok.inj checked)
        exact .poll (not_ne_iff.mp fun full => open_ (.inl full)) typed
  | consoleWriteDone =>
    obtain ⟨done, finished, rest⟩ := Runs.bind_eq_ok.mp handled
    obtain ⟨rfl, rfl⟩ := Prod.mk.inj (Except.ok.inj rest)
    unfold Console.writeDone at finished
    split at finished
    · obtain rfl := Except.ok.inj finished
      exact .writeDone ‹_›
    · cases finished

/-- The objects of the console test. -/
theorem owns_iff {object : Object} : (consoleTest names main).owns object = true ↔
    object = .semaphore (.named names.readAvail) ∨
      object = .semaphore (.named names.writeDone) := by
  simp [consoleTest]

/-- Where a thread can sleep in each phase. -/
def rests (names : Names) : Phase → Place → Prop
  | .get, place => place = .inP (.named names.readAvail)
  | .check _, place => place = .inP (.named names.writeDone)
  | _, _ => False

/-- Programs can name neither semaphore by another name. -/
theorem disciplined : Disciplined (consoleTest names main) (rests names) where
  isPublic object owned := by
    rcases owns_iff.mp owned with rfl | rfl <;> rfl
  calls act thread phase data outcome did call calls := by
    cases does_of_statement did with
    -- The caller sleeps at the semaphore at most, and its new phase allows it to.
    | arrive | wait =>
      obtain rfl := Option.some.inj calls
      exact ⟨by simp [Call.objects, owns_iff], fun place sleeps => ⟨rfl, sleeps⟩⟩
    | enter | get | put | check => cases calls
  owned phase place rested := by
    cases phase with
    | get => simp [show place = _ from rested, Place.touches, owns_iff]
    | check => simp [show place = _ from rested, Place.touches, owns_iff]
    | _ => exact rested.elim
  reacquires phase condition held rested := by
    cases phase with
    | get | check => cases rested
    | _ => exact rested.elim

/-- The thread is in the routine. -/
def works (phase : Phase) : Bool := !phase.isIdle

/-- It waits for a character, or has been told of one. -/
def awaits : Phase → Bool
  | .get => true
  | _ => false

/-- The characters in the buffer of the console. -/
def supply (console : Console) : Nat := if console.incoming = eof then 0 else 1

/-- The next character that is typed is none that looks like an empty buffer. -/
def sane (_ : Signal) (console : Console) : Prop := ∀ c ∈ console.keyboard, c ≠ eof

/-- The main thread takes the characters of which the interrupts tell it. -/
theorem consuming (apart : names.readAvail ≠ names.writeDone) :
    Consuming (consoleTest names main) (rests names) names.readAvail main works awaits supply
      sane where
  owned := owns_iff.mpr (.inl rfl)
  busy phase waits := by
    cases phase with
    | get => rfl
    | _ => cases waits
  within phase waits := by
    cases phase with
    | get => rfl
    | _ => cases waits
  sleeps phase place rested := by
    cases phase with
    | get => simp [show place = _ from rested, awaits]
    | check => simp [show place = _ from rested, awaits, apart.symm]
    | _ => exact rested.elim
  statements act thread phase data outcome did := by
    cases does_of_statement did with
    | arrive => exact .await rfl rfl rfl rfl
    | get =>
      refine .take rfl rfl (by simp) fun stocked => ?_
      -- The buffer is empty from now on.
      have full : data.incoming ≠ eof := fun empty => by simp [supply, empty] at stocked
      simp only [supply, if_neg full, if_pos]
    | check =>
      refine .keep rfl ?_ rfl (by simp)
      split <;> rfl
    | wait => exact .keep rfl rfl rfl (by simp [Call.objects, apart])
    | enter | put => exact .keep rfl rfl rfl (by simp)
  consumer act thread phase data outcome did labours := by
    cases does_of_statement did with
    | enter chosen => exact .inr chosen
    | arrive | get | put | wait | check => exact .inl rfl
  few data := by
    unfold supply
    split <;> simp
  devices signal data after semaphore sound handled := by
    cases handles_of_interrupt handled with
    | idle => exact .inr ⟨rfl, by simp⟩
    | @poll c rest pollFile empty typed =>
      have full : c ≠ eof := sound c (by simp [typed])
      exact .inl ⟨by simp only [supply, if_pos empty, if_neg full], rfl⟩
    | writeDone scheduled => exact .inr ⟨rfl, by simpa using apart.symm⟩

/-- A thread waits for its write to finish. -/
def unwritten (names : Names) (place : Place) : Phase → Bool
  | .wait _ => true
  | .check _ => decide (place = .inP (.named names.writeDone))
  | _ => false

/-- A write is on its way or done while the main thread waits for it, and there is no other one. -/
structure Writing (names : Names) (phase : Phase) (kernel : Kernel) (main : Thread)
    (console : Console) : Prop where
  balance : (kernel.value (.named names.writeDone)).toNat + console.scheduled =
    if unwritten names (kernel.place main) phase then 1 else 0
  busy : console.putBusy = decide (0 < console.scheduled)

/-- What the thread has got and not put. -/
def held : Phase → List Byte
  | .put ch => [ch]
  | _ => []

/-- What the console has read and not handed out. -/
def buffered (console : Console) : List Byte :=
  if console.incoming = eof then [] else [console.incoming]

/-- Only the last character on the display may be a `q`, and behind it the routine returns. -/
def shows (display : List Byte) : Phase → Prop
  | .wait ch | .check ch => ∃ before, display = before ++ [ch] ∧ q ∉ before
  | .quit => ∃ before, display = before ++ [q] ∧ q ∉ before
  | _ => q ∉ display

/-- Every character is on the display, on its way there, or still to be typed. -/
structure Transcript (input : List Byte) (phase : Phase) (console : Console) : Prop where
  bytes : input = console.display ++ held phase ++ buffered console ++ console.keyboard
  shown : shows console.display phase

/-- The console test is where it should be, and its characters are where they should be. -/
structure Echoing (names : Names) (main : Thread) (input : List Byte)
    (client : Client Console Phase) : Prop where
  positioned : Positioned (consoleTest names main) (rests names) client.kernel client.phase
  supplied : Supplied names.readAvail main works awaits supply client
  writing : Writing names (client.phase main) client.kernel main client.data
  transcript : Transcript input (client.phase main) client.data

/-- Steps that change nothing about the writes. -/
theorem Writing.frame {later : Phase} {kernel after : Kernel} {console' : Console}
    (writing : Writing names phase kernel main console)
    (value : after.value (.named names.writeDone) = kernel.value (.named names.writeDone))
    (same : unwritten names (after.place main) later = unwritten names (kernel.place main) phase)
    (scheduled : console'.scheduled = console.scheduled)
    (busy : console'.putBusy = console.putBusy) : Writing names later after main console' where
  balance := by
    rw [value, same, scheduled]
    exact writing.balance
  busy := by
    rw [busy, scheduled]
    exact writing.busy

/-- `P` takes a unit and returns, or puts its caller to sleep. -/
theorem p_cases (kernel : Kernel) (thread : Thread) (semaphore : SemaphoreName) :
    (kernel.value semaphore = 0 ∧ (kernel.p thread semaphore).value semaphore = 0 ∧
      (kernel.p thread semaphore).place thread = .inP semaphore) ∨
    (kernel.value semaphore ≠ 0 ∧
      (kernel.p thread semaphore).value semaphore = kernel.value semaphore - 1 ∧
      (kernel.p thread semaphore).place thread = .outside) := by
  by_cases zero : kernel.value semaphore = 0
  · refine .inl ⟨zero, ?_, ?_⟩
    · rw [Kernel.p, if_pos zero, Kernel.block_value, zero]
    · rw [Kernel.p, if_pos zero]
      simp
  · rw [Kernel.p, if_neg zero]
    exact .inr ⟨zero, by simp, by simp [Kernel.leave]⟩

/-- The main thread waits for its write, and goes on if it has finished. -/
theorem Writing.p {kernel : Kernel} (writing : Writing names phase kernel main console)
    (waits : unwritten names (kernel.place main) phase = true) :
    Writing names (.check ch) (kernel.p main (.named names.writeDone)) main console := by
  obtain ⟨balance, busy⟩ := writing
  rw [waits, if_pos rfl] at balance
  rcases p_cases kernel main (.named names.writeDone) with ⟨zero, value, there⟩ | ⟨unit, value, there⟩
  · refine ⟨?_, busy⟩
    rw [value, there, ← zero]
    simpa [unwritten] using balance
  · have pos := toNat_pos unit
    refine ⟨?_, busy⟩
    rw [value, there, toNat_sub_one unit]
    simp only [unwritten, reduceCtorEq, decide_false, Bool.false_eq_true, if_false]
    omega

/-- Who is in the routine is the main thread. -/
theorem Echoing.chosen {outcome : Outcome Console Phase} (echoing : Echoing names main input client)
    (does : Does names main thread act (client.phase thread) client.data outcome) :
    thread = main := by
  have labours : client.phase thread ≠ .idle → thread = main := by
    intro busy
    refine echoing.supplied.alone thread ?_
    cases shape : client.phase thread with
    | idle => exact absurd shape busy
    | _ => rfl
  generalize client.phase thread = phase at does labours
  cases does with
  | enter chosen => exact chosen
  | arrive | get | put | wait | check => exact labours nofun

/-- Every step keeps one write at most on its way. -/
theorem Echoing.writes (echoing : Echoing names main input client)
    (apart : names.readAvail ≠ names.writeDone)
    (moves : Moves (consoleTest names main) (rests names) client act next) :
    Writing names (next.phase main) next.kernel main next.data := by
  have writing := echoing.writing
  cases moves with
  | @statement _ thread outcome current outside did silent =>
    have does := does_of_statement did
    obtain rfl := echoing.chosen does
    simp only [Function.update_self]
    generalize client.phase thread = phase at does writing
    generalize client.data = console at does writing
    cases does with
    | arrive | wait => cases silent
    | enter | get => exact writing.frame rfl rfl rfl rfl
    | put ready =>
      -- The console is not busy, so no write is on its way.
      obtain ⟨balance, busy⟩ := writing
      rw [ready, eq_comm, decide_eq_false_iff_not] at busy
      simp only [unwritten, Bool.false_eq_true, if_false] at balance
      refine ⟨?_, ?_⟩
      · simp only [written, unwritten, if_true]
        omega
      · simp [written]
    | check =>
      refine writing.frame rfl ?_ rfl rfl
      rw [outside]
      split <;> simp [unwritten]
  | @call _ thread outcome call kernel current outside did calls performed =>
    have does := does_of_statement did
    obtain rfl := echoing.chosen does
    simp only [Function.update_self]
    generalize client.phase thread = phase at does writing
    generalize client.data = console at does writing
    cases does with
    | enter | get | put | check => cases calls
    | arrive =>
      -- It waits for a character, at the other semaphore.
      obtain rfl := Option.some.inj calls
      have other : .semaphore (.named names.writeDone) ∉ Call.objects (.p names.readAvail) := by
        simp [Call.objects, apart.symm]
      have kept := (perform_avoids outside other performed).1
      exact writing.frame kept rfl rfl rfl
    | wait =>
      obtain rfl := Option.some.inj calls
      cases performed
      exact writing.p rfl
  | handle settled handled =>
    cases handles_of_interrupt handled with
    | idle => exact writing
  | @raise signal data semaphore settled handled =>
    have place := (raises_v client.kernel (.named semaphore)).place
    cases handles_of_interrupt handled with
    | poll empty typed =>
      have differ : SemaphoreName.named names.writeDone ≠ .named names.readAvail := by
        simpa using apart.symm
      refine writing.frame ?_ (by simp only [place]) rfl rfl
      simp [Kernel.v, Function.update_of_ne differ]
    | writeDone scheduled =>
      -- The one write on its way has finished.
      obtain ⟨balance, busy⟩ := writing
      have small : client.data.scheduled = 1 ∧
          (client.kernel.value (.named names.writeDone)).toNat = 0 := by
        split at balance <;> omega
      have value : ((client.kernel.v (.named names.writeDone)).value
          (.named names.writeDone)).toNat = 1 := by
        simp only [Kernel.v, Function.update_self]
        rw [toNat_add_one (by omega), small.2]
      refine ⟨?_, ?_⟩
      · simp only [value, place]
        rw [← balance, small.1, small.2]
      · simp [small]
  | @resume thread kernel current busy rested resumed =>
    change (client.phase thread).isIdle = false at busy
    obtain rfl := echoing.supplied.alone thread (by rw [works, busy]; rfl)
    cases shape : client.phase thread with
    | get =>
      rw [shape] at rested writing
      have elsewhere : client.kernel.place thread ≠ .inP (.named names.writeDone) := by
        rw [show client.kernel.place thread = _ from rested]
        simpa using apart
      exact writing.frame (resume_avoids elsewhere resumed) rfl rfl rfl
    | check ch =>
      -- It waits for its write, and tries again.
      rw [shape] at rested writing
      have there : client.kernel.place thread = .inP (.named names.writeDone) := rested
      rw [there, Kernel.resume, Except.ok.injEq] at resumed
      subst resumed
      exact writing.p (by simp [unwritten, there])
    | idle | arrive | put | wait | quit =>
      rw [shape] at rested
      exact rested.elim
  | @other action kernel stepped untouched still =>
    refine writing.frame (Kernel.value_eq_of_units (untouched.units _ (owns_iff.mpr (.inr rfl))))
      ?_ rfl rfl
    cases shape : client.phase main with
    | check ch =>
      have kept := still main (by rw [shape]; rfl)
      simp only [unwritten, kept]
    | _ => rfl

/-- The statements move every character one place on. -/
theorem Transcript.statement {outcome : Outcome Console Phase}
    (transcript : Transcript input phase console)
    (full : phase = .get → console.incoming ≠ eof)
    (does : Does names main thread act phase console outcome) :
    Transcript input outcome.phase outcome.data := by
  obtain ⟨bytes, shown⟩ := transcript
  cases does with
  | enter | arrive | wait => exact ⟨bytes, shown⟩
  | get =>
    -- The character goes from the buffer to the thread.
    refine ⟨?_, shown⟩
    rw [bytes, buffered, if_neg (full rfl), buffered, if_pos rfl]
    simp [held]
  | @put _ ch ready =>
    -- It goes from the thread to the display.
    refine ⟨?_, console.display, rfl, shown⟩
    have same : buffered (written console ch) = buffered console := rfl
    rw [bytes, same]
    simp [held, written]
  | @check _ ch =>
    obtain ⟨before, display, absent⟩ := shown
    by_cases last : ch = q
    · rw [if_pos last]
      exact ⟨bytes, before, last ▸ display, absent⟩
    · rw [if_neg last]
      refine ⟨bytes, ?_⟩
      show q ∉ console.display
      rw [display, List.mem_append, List.mem_singleton, not_or]
      exact ⟨absent, Ne.symm last⟩

/-- Every step moves every character one place on at most. -/
theorem Echoing.transcribes (echoing : Echoing names main input client)
    (typed : ∀ c ∈ input, c ≠ eof)
    (moves : Moves (consoleTest names main) (rests names) client act next) :
    Transcript input (next.phase main) next.data := by
  have transcript := echoing.transcript
  -- The main thread goes on to take a character only when one has come.
  have full : client.kernel.place main = .outside → client.phase main = .get →
      client.data.incoming ≠ eof := by
    intro outside waits empty
    have stocked := echoing.supplied.pos (by simp [Client.entitled, waits, awaits, outside])
    simp [supply, empty] at stocked
  cases moves with
  | @statement _ thread outcome current outside did silent =>
    have does := does_of_statement did
    obtain rfl := echoing.chosen does
    simp only [Function.update_self]
    exact transcript.statement (full outside) does
  | @call _ thread outcome call kernel current outside did calls performed =>
    have does := does_of_statement did
    obtain rfl := echoing.chosen does
    simp only [Function.update_self]
    exact transcript.statement (full outside) does
  | handle settled handled =>
    cases handles_of_interrupt handled with
    | idle => exact transcript
  | raise settled handled =>
    cases handles_of_interrupt handled with
    | @poll c rest pollFile empty waiting =>
      -- The character goes from the keyboard to the buffer.
      have differ : c ≠ eof := by
        refine typed c ?_
        rw [transcript.bytes, waiting]
        simp
      refine ⟨?_, transcript.shown⟩
      rw [transcript.bytes, waiting, buffered, if_pos empty, buffered, if_neg differ]
      simp
    | writeDone scheduled => exact ⟨transcript.bytes, transcript.shown⟩
  | resume current busy rested resumed => exact transcript
  | other stepped untouched still => exact transcript

/-- Every step leaves the characters in order. -/
theorem Echoing.step (echoing : Echoing names main input client)
    (apart : names.readAvail ≠ names.writeDone) (typed : ∀ c ∈ input, c ≠ eof)
    (moves : Moves (consoleTest names main) (rests names) client act next) :
    Echoing names main input next where
  positioned := echoing.positioned.step disciplined moves
  supplied := by
    refine echoing.supplied.step (consuming apart) (fun _ _ c member => typed c ?_) moves
    rw [echoing.transcript.bytes]
    exact List.mem_append_right _ member
  writing := echoing.writes apart moves
  transcript := echoing.transcribes typed moves

/-- The two semaphores are different ones. -/
theorem Init.apart (init : Init names main input client) : names.readAvail ≠ names.writeDone := by
  obtain ⟨before, history, -, -, ran⟩ := init.made.made
  have distinct := (nodup_of_creates ran).2
  simpa using distinct

/-- A new console test is in order. -/
theorem echoing_of_init (init : Init names main input client) :
    Echoing names main input client := by
  obtain ⟨-, away, fresh⟩ := init.made.grounded disciplined.isPublic
  -- The routine makes both semaphores with value 0.
  have available : client.kernel.value (.named names.readAvail) = 0 :=
    (fresh (.semaphore (.named names.readAvail), 0) (by simp)).2
  have finished : client.kernel.value (.named names.writeDone) = 0 :=
    (fresh (.semaphore (.named names.writeDone), 0) (by simp)).2
  have quiet : ∀ thread, works (client.phase thread) = false := by
    intro thread
    rw [init.idle]
    rfl
  refine ⟨⟨fun thread _ => away thread, fun thread busy => ?_⟩, ⟨fun thread labours => ?_, ?_⟩,
    ⟨?_, ?_⟩, ?_, ?_⟩
  · rw [init.idle] at busy
    cases busy
  · rw [quiet thread] at labours
    cases labours
  · simp [available, Client.entitled, init.idle, awaits, supply, init.console, Console.new]
  · simp [finished, init.idle, unwritten, init.console, Console.new]
  · simp [init.console, Console.new]
  · simp [init.idle, init.console, Console.new, held, buffered]
  · simp [init.idle, init.console, Console.new, shows]

/-- The echo of an input that begins without a `q` begins like it. -/
theorem echo_append {display : List Byte} (absent : q ∉ display) (more : List Byte) :
    echo (display ++ more) = display ++ echo more := by
  induction display with
  | nil => rfl
  | cons first rest ih =>
    rw [List.mem_cons, not_or] at absent
    rw [List.cons_append, echo, if_neg (Ne.symm absent.1), ih absent.2]
    rfl

/-- The display shows a part of the echo, and all of it in the end. -/
theorem Transcript.echoed (transcript : Transcript input phase console) :
    console.display <+: echo input ∧ (phase = .quit → console.display = echo input) := by
  obtain ⟨bytes, shown⟩ := transcript
  -- A last character is echoed whether or not it is a `q`.
  have ends : ∀ ch before, console.display = before ++ [ch] → q ∉ before →
      console.display <+: echo input := by
    intro ch before display absent
    have split : input = before ++
        (ch :: (held phase ++ buffered console ++ console.keyboard)) := by
      rw [bytes, display]
      simp
    rw [split, echo_append absent, display, echo]
    split
    · exact List.prefix_refl _
    · exact List.prefix_append_right_inj before |>.mpr ⟨_, rfl⟩
  cases phase with
  | wait ch | check ch =>
    obtain ⟨before, display, absent⟩ := shown
    exact ⟨ends ch before display absent, nofun⟩
  | quit =>
    obtain ⟨before, display, absent⟩ := shown
    refine ⟨ends q before display absent, fun _ => ?_⟩
    have split : input = before ++ (q :: (buffered console ++ console.keyboard)) := by
      rw [bytes, display]
      simp [held]
    rw [split, echo_append absent, display, echo, if_pos rfl]
  | idle | arrive | get | put =>
    rw [bytes, List.append_assoc, List.append_assoc, echo_append shown]
    exact ⟨List.prefix_append _ _, nofun⟩

/-- The test after any run. -/
theorem echoing_of_reachable (typed : ∀ c ∈ input, c ≠ eof)
    (reached : Runs.Reachable (consoleTest names main).step (Init names main input)
      (fun _ _ => True) client) :
    names.readAvail ≠ names.writeDone ∧ Grounded (consoleTest names main).owns client.kernel ∧
      Echoing names main input client := by
  refine reached.invariant (fun client => names.readAvail ≠ names.writeDone ∧
    Grounded (consoleTest names main).owns client.kernel ∧ Echoing names main input client) ?_ ?_
  · intro client init
    exact ⟨init.apart, (init.made.grounded disciplined.isPublic).1, echoing_of_init init⟩
  · intro client act next before _ stepped
    obtain ⟨apart, grounded, echoing⟩ := before
    have moves := echoing.positioned.moves disciplined stepped
    exact ⟨apart, grounded.step disciplined.isPublic stepped, echoing.step apart typed moves⟩

/-- No statement of the loop goes wrong. -/
theorem Echoing.go (echoing : Echoing names main input client)
    (grounded : Grounded (consoleTest names main).owns client.kernel)
    (failed : (consoleTest names main).step client (.go ()) = .error fault) : fault = .disabled := by
  have silent : ∀ thread outcome condition lock, (consoleTest names main).statement (.go ()) thread
      (client.phase thread) client.data = .ok outcome →
        outcome.call ≠ some (.broadcast condition lock) := by
    intro thread outcome condition lock did
    have does := does_of_statement did
    generalize client.phase thread = phase at does
    generalize client.data = console at does
    cases does <;> simp
  rcases grounded.step_go disciplined silent failed with done | ⟨thread, -, outside, wrong⟩
  · exact done
  · cases shape : client.phase thread with
    | put ch =>
      -- No write is on its way when the next character is put.
      obtain rfl := echoing.supplied.alone thread (by rw [shape]; rfl)
      obtain ⟨balance, busy⟩ := echoing.writing
      rw [shape] at wrong balance
      simp only [unwritten, Bool.false_eq_true, if_false] at balance
      have ready : client.data.putBusy = false := by
        rw [busy, decide_eq_false_iff_not]
        omega
      change (client.data.putChar ch >>= _) = _ at wrong
      rw [Console.putChar, if_pos ready] at wrong
      cases wrong
    | idle | quit =>
      rw [shape] at wrong
      exact (Except.error.inj wrong).symm
    | arrive | get | wait | check =>
      rw [shape] at wrong
      cases wrong

/--
The console test echoes what is typed up to the first `q`, and then returns.

Whatever other threads do, and whenever the interrupts come: the display shows a part of the echo,
and all of it once the test has returned. No character is put while the console is busy, no
statement goes wrong, and at most two characters have been read and are not yet on the display. Who
sleeps for a character has echoed all that were read, and who sleeps for the display is woken.
-/
theorem echoes (typed : ∀ c ∈ input, c ≠ eof)
    (reached : Runs.Reachable (consoleTest names main).step (Init names main input)
      (fun _ _ => True) client) :
    client.data.display <+: echo input ∧
    (client.phase main = .quit → client.data.display = echo input) ∧
    (∃ between, input = client.data.display ++ between ++ client.data.keyboard ∧
      between.length ≤ 2) ∧
    (∀ fault, (consoleTest names main).step client (.go ()) = .error fault → fault = .disabled) ∧
    (client.kernel.place main = .inP (.named names.readAvail) →
      client.kernel.value (.named names.readAvail) = 0 →
        input = client.data.display ++ client.data.keyboard) ∧
    (client.kernel.place main = .inP (.named names.writeDone) →
      client.kernel.value (.named names.writeDone) = 0 → client.data.scheduled = 1) := by
  obtain ⟨apart, grounded, echoing⟩ := echoing_of_reachable typed reached
  have transcript := echoing.transcript
  have bytes := transcript.bytes
  obtain ⟨part, all⟩ := transcript.echoed
  -- A thread that sleeps at one of the semaphores is in the routine.
  have busy : ∀ name, (consoleTest names main).owns (.semaphore (.named name)) = true →
      client.kernel.place main = .inP (.named name) →
        rests names (client.phase main) (.inP (.named name)) := by
    intro name owned there
    rcases Bool.eq_false_or_eq_true ((consoleTest names main).idle (client.phase main)) with
      idle | busy
    · have untouched := echoing.positioned.idle main idle
      rw [there, Place.touches, owned] at untouched
      cases untouched
    · rcases echoing.positioned.busy main busy with outside | rested
      · rw [there] at outside
        cases outside
      · rwa [there] at rested
  refine ⟨part, all, ⟨held (client.phase main) ++ buffered client.data, ?_, ?_⟩,
    fun fault failed => echoing.go grounded failed, fun there zero => ?_, fun there zero => ?_⟩
  · rw [← List.append_assoc]
    exact bytes
  · have few : (held (client.phase main)).length ≤ 1 := by cases client.phase main <;> simp [held]
    have one : (buffered client.data).length ≤ 1 := by
      unfold buffered
      split <;> simp
    rw [List.length_append]
    omega
  · have rested := busy _ (owns_iff.mpr (.inl rfl)) there
    have balance := echoing.supplied.balance
    rw [zero] at balance
    -- Asleep, it is entitled to nothing, so nothing is buffered.
    have asleep : client.entitled awaits main = false := by simp [Client.entitled, there]
    rw [asleep] at balance
    have empty : client.data.incoming = eof := by
      by_contra full
      simp [supply, full] at balance
    cases shape : client.phase main with
    | get =>
      rw [shape] at bytes
      simpa [held, buffered, empty] using bytes
    | check ch =>
      rw [shape] at rested
      simp only [rests, Place.inP.injEq, SemaphoreName.named.injEq] at rested
      exact absurd rested apart
    | _ =>
      rw [shape] at rested
      exact rested.elim
  · have rested := busy _ (owns_iff.mpr (.inr rfl)) there
    have balance := echoing.writing.balance
    rw [zero, there] at balance
    cases shape : client.phase main with
    | check ch =>
      rw [shape] at balance
      simpa [unwritten] using balance
    | get =>
      rw [shape] at rested
      simp only [rests, Place.inP.injEq, SemaphoreName.named.injEq] at rested
      exact absurd rested.symm apart
    | _ =>
      rw [shape] at rested
      exact rested.elim

/-- The console of the first thread, at whose keyboard somebody types `hq!`. -/
def firstConsole : Client Console Phase where
  kernel := (firstKernel.construct (.semaphore (.named 0)) 0).construct (.semaphore (.named 1)) 0
  data := .new [0x68, q, 0x21]
  phase := fun _ => .idle

/-- It has just been made. -/
theorem init_firstConsole : Init ⟨0, 1⟩ 0 [0x68, q, 0x21] firstConsole where
  made := by
    refine ⟨fun object owned => ?_, firstKernel, [], .start boot_firstKernel, fun _ _ => rfl, rfl⟩
    rcases owns_iff.mp owned with rfl | rfl <;> simp
  idle := fun _ => rfl
  console := rfl

/-- One character is typed before it is waited for, and the other one while the test sleeps. -/
def echoTwo : List (Act Unit Unit Signal) :=
  [.enter (), .device (.consoleReadPoll true), .go (), .go (), .go (), .go (),
    .device .consoleWriteDone, .other .dispatch, .other .resume, .go (), .go (),
    .device (.consoleReadPoll false), .device (.consoleReadPoll true), .other .dispatch,
    .other .resume, .go (), .go (), .device .consoleWriteDone, .go (), .go ()]

/-- The test has echoed the `q` and returned, and one character is left at the keyboard. -/
theorem echoes_echoTwo : ∃ client,
    Runs.run (consoleTest ⟨0, 1⟩ 0).step firstConsole echoTwo = .ok client ∧
      client.phase 0 = .quit ∧ client.data.display = [0x68, q] := by
  obtain ⟨client, ran, returned⟩ := Runs.exists_of_runsTo
    (show Runs.runsTo (consoleTest ⟨0, 1⟩ 0).step firstConsole echoTwo
      (fun client => client.phase 0 = .quit) = true by decide +kernel)
  have reached := Runs.Reachable.extend (.start init_firstConsole)
    (Runs.guarded_of_forall (fun _ _ _ => trivial) firstConsole) ran
  have quit := of_decide_eq_true returned
  exact ⟨client, ran, quit, (echoes (by decide) reached).2.1 quit⟩

end Nachos.ConsoleTest
