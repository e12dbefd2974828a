/-! Structured programs that are run from a stack, and the rules for what they establish. -/

namespace Programs

universe u v w

variable {σ : Type u} {β : Type v} {τ : Type w}

/-- A program made of basic statements, whose tests read a state. -/
inductive Program (σ : Type u) (β : Type v) where
  | skip
  | basic (statement : β)
  | seq (first second : Program σ β)
  | branch (test : σ → Bool) (yes no : Program σ β)
  | loop (test : σ → Bool) (body : Program σ β)
  /-- A loop that counts its turns up to a bound, which it reads before each of them. -/
  | count (done : Nat) (bound : σ → Nat) (body : Program σ β)

namespace Program

/-- Statements one after the other. -/
def block : List (Program σ β) → Program σ β
  | [] => .skip
  | first :: rest => .seq first (block rest)

/-- What is to be run in place of a program; a basic statement is not taken apart. -/
def expand (state : σ) : Program σ β → List (Program σ β)
  | .skip => []
  | .basic statement => [.basic statement]
  | .seq first second => [first, second]
  | .branch test yes no => if test state then [yes] else [no]
  | .loop test body => if test state then [body, .loop test body] else []
  | .count done bound body =>
    if done < bound state then [body, .count (done + 1) bound body] else []

end Program

/--
What must hold of a view of the system before a basic statement for a condition to hold after it.

A rule that establishes a condition establishes every weaker one.
-/
structure Rule (β : Type v) (τ : Type w) where
  before : β → (τ → Prop) → τ → Prop
  mono {statement : β} {post weaker : τ → Prop} {view : τ} :
    (∀ view, post view → weaker view) → before statement post view → before statement weaker view

variable {rule : Rule β τ} {post weaker : τ → Prop} {view : τ}

/--
What must hold before a program for a condition to hold after it, whatever its tests say.

A loop needs an invariant, which must imply the condition as the loop may end after every turn.
-/
def Program.before (rule : Rule β τ) : Program σ β → (τ → Prop) → τ → Prop
  | .skip, post => post
  | .basic statement, post => rule.before statement post
  | .seq first second, post => first.before rule (second.before rule post)
  | .branch _ yes no, post => fun view => yes.before rule post view ∧ no.before rule post view
  | .loop _ body, post | .count _ _ body, post => fun view =>
    ∃ invariant : τ → Prop, invariant view ∧
      ∀ view, invariant view → post view ∧ body.before rule invariant view

/-- A program establishes every weaker condition. -/
theorem Program.before_mono (implied : ∀ view, post view → weaker view) {program : Program σ β}
    (holds : program.before rule post view) : program.before rule weaker view := by
  induction program generalizing post weaker view with
  | skip => exact implied view holds
  | basic statement => exact rule.mono implied holds
  | seq first second ihFirst ihSecond =>
    exact ihFirst (fun view => ihSecond implied) holds
  | branch test yes no ihYes ihNo => exact ⟨ihYes implied holds.1, ihNo implied holds.2⟩
  -- The invariant of a loop stays the same.
  | loop test body | count done bound body =>
    obtain ⟨invariant, now, turn⟩ := holds
    exact ⟨invariant, now, fun view held => ⟨implied view (turn view held).1, (turn view held).2⟩⟩

/-- A block is run statement by statement. -/
@[simp] theorem Program.before_block_cons {first : Program σ β} {rest : List (Program σ β)} :
    (Program.block (first :: rest)).before rule post view =
      first.before rule ((Program.block rest).before rule post) view := rfl

@[simp] theorem Program.before_block_nil :
    (Program.block ([] : List (Program σ β))).before rule post view = post view := rfl

/-- Two blocks in a row establish what the first must establish for the second. -/
theorem Program.before_block_append {first second : List (Program σ β)} :
    (Program.block (first ++ second)).before rule post =
      (Program.block first).before rule ((Program.block second).before rule post) := by
  induction first with
  | nil => rfl
  | cons program rest ih =>
    exact congrArg (program.before rule) ih

@[simp] theorem Program.before_skip :
    (Program.skip : Program σ β).before rule post view = post view := rfl

@[simp] theorem Program.before_basic {statement : β} :
    (Program.basic statement : Program σ β).before rule post view =
      rule.before statement post view := rfl

@[simp] theorem Program.before_branch {test : σ → Bool} {yes no : Program σ β} :
    (Program.branch test yes no).before rule post view ↔
      yes.before rule post view ∧ no.before rule post view := Iff.rfl

/-- A condition that the body of a loop keeps is the invariant of the loop. -/
theorem Program.before_loop {test : σ → Bool} {body : Program σ β}
    (kept : ∀ view, post view → body.before rule post view) (now : post view) :
    (Program.loop test body).before rule post view :=
  ⟨post, now, fun view held => ⟨held, kept view held⟩⟩

/-- The same for a loop that counts. -/
theorem Program.before_count {done : Nat} {bound : σ → Nat} {body : Program σ β}
    (kept : ∀ view, post view → body.before rule post view) (now : post view) :
    (Program.count done bound body).before rule post view :=
  ⟨post, now, fun view held => ⟨held, kept view held⟩⟩

/-- What must hold before all programs of a stack are run, its first one first. -/
def before (rule : Rule β τ) (stack : List (Program σ β)) (post : τ → Prop) : τ → Prop :=
  stack.foldr (Program.before rule) post

@[simp] theorem before_nil : before rule ([] : List (Program σ β)) post = post := rfl

@[simp] theorem before_cons {program : Program σ β} {stack : List (Program σ β)} :
    before rule (program :: stack) post = program.before rule (before rule stack post) := rfl

/-- Taking the first program of a stack apart keeps what the stack establishes. -/
theorem before_expand (state : σ) {program : Program σ β} {stack : List (Program σ β)}
    (holds : before rule (program :: stack) post view) :
    before rule (program.expand state ++ stack) post view := by
  cases program with
  | skip | basic | seq => exact holds
  | branch test yes no =>
    simp only [Program.expand]
    split
    · exact holds.1
    · exact holds.2
  -- After a turn of a loop its invariant holds again.
  | loop test body | count done bound body =>
    obtain ⟨invariant, now, turn⟩ := holds
    simp only [Program.expand]
    split
    · exact Program.before_mono (fun view held => ⟨invariant, held, turn⟩) (turn view now).2
    · exact (turn view now).1

end Programs
