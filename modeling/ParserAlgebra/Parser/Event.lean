import ParserAlgebra.Parser.Basic
/-!
# Runs and their events

A run has an outcome and leaves events behind, in the order in which they happened: the parsers
that were run with their inputs, the marks of probes, and log records.  Events are only ever
added, so they cannot influence the outcome, and a run that is cut short keeps those before.

* `outcome_bind`, `events_bind`: what a sequence of two runs yields and leaves.  Runs obey the monad
  laws, so a sequence of runs can be regrouped.
-/

namespace ParserAlgebra

/-- A log record. -/
inductive Record where
  | trying (label : Text)
  /-- A labelled parser failed, with the label of the failure itself, in front of an excerpt. -/
  | failed (label expected excerpt : Text)
  /-- A cell was given its definition. -/
  | tied (cell : Nat)
deriving DecidableEq, Repr

/-- The state of a parser towards recursion. -/
inductive Status where
  /-- Not a cell. -/
  | nonRecursive
  /-- A cell without a definition. -/
  | awaiting
  /-- A cell with its definition. -/
  | tied
deriving DecidableEq, Repr

/-- The word for a state. -/
def Status.word : Status → String
  | nonRecursive => "non-recursive"
  | awaiting => "awaiting-recurse"
  | tied => "recursion-set"

/-- The written form of a parser in a state, which tells it from others by its place. -/
def Status.written (place : Text) (s : Status) : Text :=
  Text.ofString s!"<Parser {s.word} at " ++ place ++ Text.ofString ">"

/-- The text of a record; `place` tells a cell from others. -/
def Record.message (place : Nat → Text) : Record → Text
  | trying label => Text.ofString "trying " ++ label
  | failed label expected excerpt =>
    label ++ Text.ofString " failed (" ++ expected ++ Text.ofString ") at " ++ excerpt.quoted
  | tied cell =>
    Text.ofString "Recursive parser " ++ Status.tied.written (place cell) ++ Text.ofString " set up"

/-- Something that happened during a run. -/
inductive Event where
  | entered (p : Parser) (input : Text)
  | probed (tag input : Text)
  | logged (r : Record)

/-- A computation with its outcome and the events it left. -/
@[ext] structure Run (α : Type) where
  outcome : Outcome α
  events : List Event := []

namespace Run

variable {α β γ : Type}

instance : Inhabited (Run α) := ⟨{ outcome := .error .unfinished }⟩

instance : Monad Run where
  pure a := { outcome := .ok a }
  bind x f :=
    match x.outcome with
    | .ok a => { outcome := (f a).outcome, events := x.events ++ (f a).events }
    | .error stop => { outcome := .error stop, events := x.events }

/-- A computation without events. -/
def ofOutcome (x : Outcome α) : Run α := { outcome := x }

/-- A computation without events that ends. -/
def ofExcept (x : Except Fault α) : Run α := { outcome := .ofExcept x }

/-- Leaves one event. -/
def emit (e : Event) : Run Unit := { outcome := .ok (), events := [e] }

/-- Leaves one record. -/
def log (r : Record) : Run Unit := emit (.logged r)

@[simp] theorem outcome_pure (a : α) : (pure a : Run α).outcome = .ok a := rfl

@[simp] theorem events_pure (a : α) : (pure a : Run α).events = [] := rfl

@[simp] theorem outcome_bind (x : Run α) (f : α → Run β) :
    (x >>= f).outcome = x.outcome.bind fun a => (f a).outcome := by
  simp only [Bind.bind]
  cases h : x.outcome <;> rfl

theorem events_bind (x : Run α) (f : α → Run β) :
    (x >>= f).events = x.events ++ (x.outcome.toOption.map fun a => (f a).events).getD [] := by
  simp only [Bind.bind]
  cases h : x.outcome <;> simp [Except.toOption]

theorem pure_bind_eq (a : α) (f : α → Run β) : pure a >>= f = f a := by
  ext1
  · rfl
  · simp [events_bind, Except.toOption]

theorem bind_pure_eq (x : Run α) : x >>= pure = x := by
  ext1
  · simp only [outcome_bind]
    cases x.outcome <;> rfl
  · simp only [events_bind]
    cases x.outcome <;> simp [Except.toOption]

theorem bind_assoc_eq (x : Run α) (f : α → Run β) (g : β → Run γ) :
    x >>= f >>= g = x >>= fun a => f a >>= g := by
  ext1
  · simp only [outcome_bind]
    cases x.outcome <;> rfl
  · simp only [events_bind, outcome_bind]
    cases hx : x.outcome with
    | error stop => simp [Except.toOption, Except.bind]
    | ok a => cases hf : (f a).outcome <;> simp [Except.toOption, Except.bind, hf]

instance : LawfulMonad Run :=
  .mk' Run (fun x => bind_pure_eq x) (fun a f => pure_bind_eq a f) (fun x f g => bind_assoc_eq x f g)

end Run

end ParserAlgebra
