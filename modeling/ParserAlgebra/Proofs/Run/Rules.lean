import ParserAlgebra.Grammar
/-!
# Rules for sequences of runs

A run of a parser is a sequence of smaller runs, put together by the monad of
`Run`.  What is wanted of a run is therefore mostly shown of its pieces, and
this file has the rules for that.

* `Run.Yields`: whatever a run results in has a property.  Nothing is said of a
  run that is cut short.
* `Run.Ends`: a run is not left unfinished.
* `Run.Traces`: if a run gives a result, then all events it left have a
  property.
* `Run.Congruence`: a relation between two runs that sequences inherit from
  their pieces.  `Run.EqUnless` is one: two runs are the same, unless the first
  stops for a given reason.

Each notion has one rule for `>>=`, and proofs about parsers use that rule and
never look at how outcomes and events are put together.
-/

namespace ParserAlgebra

/-- The parser and the text of an event that enters a sub-run. -/
def Event.subRun? : Event → Option (Parser × Text)
  | .entered p input => some (p, input)
  | _ => none

namespace Run

variable {α β : Type} {x : Run α} {f : α → Run β} {P : α → Prop} {Q : β → Prop}

/-- The sub-runs that a run performed, itself included, in order. -/
def subRuns (x : Run α) : List (Parser × Text) :=
  x.events.filterMap Event.subRun?

theorem mem_subRuns {p : Parser} {input : Text} :
    (p, input) ∈ x.subRuns ↔ Event.entered p input ∈ x.events := by
  simp only [subRuns, List.mem_filterMap]
  constructor
  · rintro ⟨e, he, hsub⟩
    cases e with
    | entered q t =>
        simp only [Event.subRun?, Option.some.injEq, Prod.mk.injEq] at hsub
        obtain ⟨rfl, rfl⟩ := hsub
        exact he
    | probed tag t => cases hsub
    | logged r => cases hsub
  · intro he
    exact ⟨_, he, rfl⟩

/-- A sequence gives a result exactly when both of its parts do. -/
theorem outcome_bind_eq_ok_iff {b : β} :
    (x >>= f).outcome = .ok b ↔
      ∃ a, x.outcome = .ok a ∧ (f a).outcome = .ok b := by
  rw [outcome_bind]
  cases x.outcome with
  | error stop => simp [Except.bind]
  | ok a => simp [Except.bind]

/-- A sequence does not stop for a reason exactly when neither of its parts
does. -/
theorem outcome_bind_ne_error_iff {stop : Stop} :
    (x >>= f).outcome ≠ .error stop ↔
      x.outcome ≠ .error stop ∧
        ∀ a, x.outcome = .ok a → (f a).outcome ≠ .error stop := by
  rw [outcome_bind]
  cases x.outcome with
  | error stop => simp [Except.bind]
  | ok a => simp [Except.bind]

theorem events_bind_of_ok {a : α} (h : x.outcome = .ok a) :
    (x >>= f).events = x.events ++ (f a).events := by
  simp [events_bind, h, Except.toOption]

/-- Only what follows the results of the first part bears on a sequence. -/
theorem bind_eq_bind_of_ok
    {g : α → Run β}
    (h : ∀ a, x.outcome = .ok a → f a = g a) :
    x >>= f = x >>= g := by
  simp only [Bind.bind]
  cases ha : x.outcome with
  | error stop => rfl
  | ok a => simp only [h a ha]

/-- Every result of the run has the property. -/
def Yields (x : Run α) (P : α → Prop) : Prop := ∀ a, x.outcome = .ok a → P a

theorem yields_pure {a : α} (h : P a) : (pure a : Run α).Yields P := by
  intro b hb
  cases hb
  exact h

theorem yields_bind
    (hx : x.Yields P)
    (hf : ∀ a, P a → (f a).Yields Q) :
    (x >>= f).Yields Q := by
  intro b hb
  obtain ⟨a, ha, hb⟩ := outcome_bind_eq_ok_iff.mp hb
  exact hf a (hx a ha) b hb

theorem Yields.and {P' : α → Prop} (h : x.Yields P) (h' : x.Yields P') :
    x.Yields fun a => P a ∧ P' a :=
  fun a ha => ⟨h a ha, h' a ha⟩

/-- What a run starts with does not bear on its result if the result is not
used. -/
theorem yields_emit_bind {e : Event} {f : Unit → Run β} (hf : (f ()).Yields Q) :
    (emit e >>= f).Yields Q :=
  yields_bind (P := fun _ => True) (fun _ _ => trivial) fun _ _ => hf

theorem yields_ofExcept {y : Except Fault α} (h : ∀ a, y = .ok a → P a) :
    (ofExcept y).Yields P := by
  intro a ha
  cases y with
  | error cause => cases ha
  | ok b =>
      cases ha
      exact h _ rfl

/-- The run gives a result or stops with a fault. -/
def Ends (x : Run α) : Prop := x.outcome ≠ .error .unfinished

theorem ends_pure (a : α) : (pure a : Run α).Ends := by
  intro h
  cases h

theorem ends_ofExcept (x : Except Fault α) : (ofExcept x).Ends := by
  cases x <;> simp [Ends, ofExcept, Outcome.ofExcept]

/-- A sequence ends exactly when its first part does, and what follows does
after each result. -/
theorem ends_bind_iff :
    (x >>= f).Ends ↔ x.Ends ∧ ∀ a, x.outcome = .ok a → (f a).Ends :=
  outcome_bind_ne_error_iff

theorem ends_bind
    (hx : x.Ends)
    (hf : ∀ a, x.outcome = .ok a → (f a).Ends) :
    (x >>= f).Ends :=
  ends_bind_iff.mpr ⟨hx, hf⟩

theorem ends_emit_bind
    {e : Event} {f : Unit → Run β}
    (hf : (f ()).Ends) :
    (emit e >>= f).Ends :=
  ends_bind (fun h => by cases h) fun _ _ => hf

/-- If the run gives a result, then all its events have the property. -/
def Traces (x : Run α) (C : Event → Prop) : Prop :=
  ∀ a, x.outcome = .ok a → ∀ e ∈ x.events, C e

variable {C : Event → Prop}

theorem traces_of_events_eq_nil (h : x.events = []) : x.Traces C := by
  intro a _ e he
  simp [h] at he

theorem traces_pure (a : α) : (pure a : Run α).Traces C :=
  traces_of_events_eq_nil rfl

theorem traces_bind
    (hx : x.Traces C)
    (hf : ∀ a, (f a).Traces C) :
    (x >>= f).Traces C := by
  intro b hb e he
  obtain ⟨a, ha, hb⟩ := outcome_bind_eq_ok_iff.mp hb
  rw [events_bind_of_ok ha] at he
  rcases List.mem_append.mp he with he | he
  · exact hx a ha e he
  · exact hf a b hb e he

/-- The event that a run starts with may be shown to have the property from
the result of the whole run. -/
theorem traces_emit_bind {e : Event} {f : Unit → Run β}
    (he : ∀ b, (emit e >>= f).outcome = .ok b → C e) (hf : (f ()).Traces C) :
    (emit e >>= f).Traces C := by
  intro b hb
  have hhead : (emit e).Traces C := by
    intro _ _ e' he'
    rw [List.mem_singleton.mp he']
    exact he b hb
  exact traces_bind hhead (fun _ => hf) b hb

/-- A relation between runs that holds of each run and itself, and of two
sequences if it holds of their parts. -/
structure Congruence (R : ∀ ⦃α : Type⦄, Run α → Run α → Prop) : Prop where
  refl : ∀ {α : Type} (x : Run α), R x x
  bind : ∀ {α β : Type} {x y : Run α} {f g : α → Run β},
    R x y → (∀ a, R (f a) (g a)) → R (x >>= f) (y >>= g)

/-- The second run is the first, unless that stops for this reason. -/
def EqUnless (stop : Stop) ⦃α : Type⦄ (x y : Run α) : Prop :=
  x.outcome ≠ .error stop → y = x

theorem eqUnless_congruence (stop : Stop) : Congruence (EqUnless stop) where
  refl x _ := rfl
  bind {α β x y f g} hxy hfg := by
    intro hstop
    obtain ⟨hx, hf⟩ := outcome_bind_ne_error_iff.mp hstop
    rw [hxy hx]
    exact bind_eq_bind_of_ok fun a ha => hfg a (hf a ha)

end Run

end ParserAlgebra
