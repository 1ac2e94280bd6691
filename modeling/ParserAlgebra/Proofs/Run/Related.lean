import ParserAlgebra.Proofs.Run.Rules
/-!
# Runs with related results

Two runs, of different parsers it may be, are *related* if they stop for the
same reason, or both give a result and the one result is related to the other.
Events do not count.  What the two runs go on with may be compared under the
assumption that the results so far are related (`related_bind`), and a step on
one side alone may be left out if it gives a result (`related_bind_left`).

A repetition looks at its replies only through what they accept.  So two
repetitions whose steps have replies that accept the same go the same way, and
have the same result (`chain_related`).
-/

namespace ParserAlgebra

/-- Two outcomes are the same stop, or results that are related. -/
inductive Outcome.Related {α β : Type} (S : α → β → Prop) :
    Outcome α → Outcome β → Prop
  | ok {a : α} {b : β} (h : S a b) : Outcome.Related S (.ok a) (.ok b)
  | error (stop : Stop) : Outcome.Related S (.error stop) (.error stop)

theorem Outcome.related_refl {α : Type} {S : α → α → Prop} (hS : ∀ a, S a a)
    (x : Outcome α) : Outcome.Related S x x := by
  cases x with
  | ok a => exact .ok (hS a)
  | error stop => exact .error stop

theorem Outcome.Related.symm
    {α : Type} {S : α → α → Prop}
    (hS : ∀ a b, S a b → S b a)
    {x y : Outcome α}
    (h : Outcome.Related S x y) :
    Outcome.Related S y x := by
  cases h with
  | ok hab => exact .ok (hS _ _ hab)
  | error stop => exact .error stop

namespace Run

variable {α α' β β' : Type} {S : α → α' → Prop} {T : β → β' → Prop}
variable {x : Run α} {y : Run α'} {f : α → Run β} {g : α' → Run β'}

/-- The outcomes of two runs are related. -/
def Related (S : α → α' → Prop) (x : Run α) (y : Run α') : Prop :=
  Outcome.Related S x.outcome y.outcome

theorem related_pure {a : α} {b : α'} (h : S a b) :
    Related S (pure a) (pure b) := .ok h

theorem related_bind
    (hxy : Related S x y)
    (hfg : ∀ a b, S a b → Related T (f a) (g b)) :
    Related T (x >>= f) (y >>= g) := by
  unfold Related at hxy ⊢
  rw [outcome_bind, outcome_bind]
  revert hxy
  generalize x.outcome = o, y.outcome = o'
  rintro (hab | stop)
  · exact hfg _ _ hab
  · exact .error stop

/-- A step of the first run alone. -/
theorem related_bind_left {a : α} {z : Run β'} (hx : x.outcome = .ok a)
    (h : Related T (f a) z) : Related T (x >>= f) z := by
  unfold Related
  rw [outcome_bind, hx]
  exact h

/-- What the first run alone goes on with. -/
theorem related_bind_pure {f : α → Run β} {y : Run β'} {S : α → β' → Prop}
    {x : Run α} (hxy : Related S x y)
    (hf : ∀ a b, S a b → Related T (f a) (pure b)) : Related T (x >>= f) y := by
  have h : Related T (x >>= f) (y >>= pure) := related_bind hxy hf
  rwa [bind_pure] at h

/-- Two runs that begin with an event each. -/
theorem related_emit_bind {e e' : Event} {f : Unit → Run β} {g : Unit → Run β'}
    (h : Related T (f ()) (g ())) :
    Related T (emit e >>= f) (emit e' >>= g) :=
  related_bind (S := fun _ _ => True) (.ok trivial) fun _ _ _ => h

end Run

/-- Repetitions go the same way if the replies of their steps accept the
same. -/
theorem chain_related
    {S : Reply → Reply → Prop}
    (haccept : ∀ r r', S r r' → r.accepted? = r'.accepted?)
    {step step' : Text → Run Reply}
    (hstep : ∀ t, Run.Related S (step t) (step' t))
    (bound : Nat) (input : Text) :
    Run.Related Eq (chain step bound input) (chain step' bound input) := by
  induction bound generalizing input with
  | zero =>
      exact Run.related_bind (hstep input) fun _ _ _ => Run.related_pure rfl
  | succ bound ih =>
      refine Run.related_bind (hstep input) fun r r' hr => ?_
      rw [haccept r r' hr]
      split
      · split
        · refine Run.related_bind (ih _) fun vs vs' hvs => ?_
          rw [hvs]
          exact Run.related_pure rfl
        · exact Run.related_pure rfl
      · exact Run.related_pure rfl

end ParserAlgebra
