import ParserAlgebra.Proofs.Reach
import ParserAlgebra.Proofs.Run.Congruence
/-!
# Short-circuit choice refines eager choice

With eager choice the second side of a choice is run even if the first has
succeeded, and its reply is then thrown away.  So a run may only gain by leaving
it out: if the eager run gives a reply, then the run with short-circuit choice
gives the same one, and does nothing that the eager one does not do as well.

What is skipped at one choice lies between things that are not skipped, at
choices inside repetitions, lookaheads and recursive parsers.  The relation
`Run.Refines` is therefore a congruence, and says of the events that the ones of
the second run are among those of the first in the same order.
-/

namespace ParserAlgebra

namespace Settings

/-- The settings with both sides of each choice run. -/
def eager (s : Settings) : Settings := { s with eagerChoice := true }

/-- The settings with the second side of a choice run only if the first
fails. -/
def shortCircuit (s : Settings) : Settings := { s with eagerChoice := false }

end Settings

/-- If the first run gives a result, then the second gives the same, and the
events it leaves are among those of the first. -/
def Run.Refines ⦃α : Type⦄ (x y : Run α) : Prop :=
  ∀ a, x.outcome = .ok a → y.outcome = .ok a ∧ y.events.Sublist x.events

theorem Run.refines_congruence : Run.Congruence Run.Refines where
  refl x a ha := ⟨ha, List.Sublist.refl _⟩
  bind {α β x y f g} hxy hfg := by
    intro b hb
    obtain ⟨a, ha, hab⟩ := outcome_bind_eq_ok_iff.mp hb
    obtain ⟨hya, hevents⟩ := hxy a ha
    obtain ⟨hgb, hevents'⟩ := hfg a b hab
    refine ⟨outcome_bind_eq_ok_iff.mpr ⟨a, hya, hgb⟩, ?_⟩
    rw [events_bind_of_ok ha, events_bind_of_ok hya]
    exact hevents.append hevents'

/-- A run whose result is not used may be left out. -/
theorem Run.refines_pure_of_bind
    {α β : Type} (x : Run α) {f : α → Run β} {b : β}
    (h : ∀ a, f a = pure b) :
    Run.Refines (x >>= f) (pure b) := by
  intro c hc
  obtain ⟨a, ha, hac⟩ := outcome_bind_eq_ok_iff.mp hc
  rw [h a] at hac
  exact ⟨hac, List.nil_sublist _⟩

namespace Parser

variable {s : Settings} {enter enter' : Nat → Text → Run Reply}
variable {p q : Parser} {input : Text}

theorem eval_orElse_eager :
    (p.orElse q).eval s.eager enter input = (do
      Run.emit (.entered (p.orElse q) input)
      let r ← p.eval s.eager enter input
      return r.alternative (← q.eval s.eager enter input)) := by
  simp [eval, Settings.eager]

theorem eval_orElse_shortCircuit :
    (p.orElse q).eval s.shortCircuit enter input = (do
      Run.emit (.entered (p.orElse q) input)
      let r ← p.eval s.shortCircuit enter input
      if r.isSuccess then return r
      else return r.alternative (← q.eval s.shortCircuit enter input)) := by
  simp [eval, Settings.shortCircuit]

/-- At a choice the second side is skipped after a success, and run as before
after a failure. -/
theorem orElse_refines
    (hp : Run.Refines (p.eval s.eager enter input)
      (p.eval s.shortCircuit enter' input))
    (hq : Run.Refines (q.eval s.eager enter input)
      (q.eval s.shortCircuit enter' input)) :
    Run.Refines ((p.orElse q).eval s.eager enter input)
      ((p.orElse q).eval s.shortCircuit enter' input) := by
  have hR := Run.refines_congruence
  rw [eval_orElse_eager, eval_orElse_shortCircuit]
  refine hR.bind (hR.refl _) fun _ => hR.bind hp fun r => ?_
  by_cases hsucc : r.isSuccess
  · rw [if_pos hsucc]
    refine Run.refines_pure_of_bind _ fun b => ?_
    rw [Reply.alternative_of_isSuccess hsucc]
  · rw [if_neg hsucc]
    exact hR.bind hq fun _ => hR.refl _

end Parser

namespace Grammar

variable {g : Grammar} {s : Settings} {limit : Nat} {p : Parser} {input : Text}

/-- Every run with eager choice is refined by the one with short-circuit
choice. -/
theorem run_refines : Run.Refines (g.run s.eager limit p input)
    (g.run s.shortCircuit limit p input) := by
  have h : Run.Refines (g.run s.eager limit p input)
      (g.run s.shortCircuit (0 + limit) p input) := by
    refine run_congr Run.refines_congruence ?_ ?_ ?_ limit p input
    · intro id t
      exact Run.refines_congruence.refl _
    · intro r
      exact Run.refines_congruence.refl _
    · intro limit p q t hp hq
      exact Parser.orElse_refines hp hq
  rwa [Nat.zero_add] at h

/-- **Short-circuit choice refines eager choice.**  Where the eager run gives
a reply, the other gives the same reply, and its sub-runs are a subsequence of
those of the eager run. -/
theorem run_shortCircuit_of_run_eager {r : Reply}
    (h : (g.run s.eager limit p input).outcome = .ok r) :
    (g.run s.shortCircuit limit p input).outcome = .ok r ∧
      (g.run s.shortCircuit limit p input).subRuns.Sublist
        (g.run s.eager limit p input).subRuns := by
  obtain ⟨houtcome, hevents⟩ := run_refines r h
  exact ⟨houtcome, hevents.filterMap _⟩

/-- In a sum in parentheses, the integers that the terms might have been are
not tried. -/
theorem sums_shortCircuit_of_eager :
    (sums.run (Settings.eager {}) 4 (.cell 0) "(7)").outcome =
      .ok (.success (.list [.list [.int 7]]) []) ∧
    (sums.run (Settings.shortCircuit {}) 4 (.cell 0) "(7)").outcome =
      .ok (.success (.list [.list [.int 7]]) []) ∧
    (sums.run (Settings.shortCircuit {}) 4 (.cell 0) "(7)").subRuns.Sublist
      (sums.run (Settings.eager {}) 4 (.cell 0) "(7)").subRuns := by
  have hrun : (sums.run (Settings.eager {}) 4 (.cell 0) "(7)").outcome =
      .ok (.success (.list [.list [.int 7]]) []) := rfl
  obtain ⟨hshort, hsub⟩ := run_shortCircuit_of_run_eager hrun
  exact ⟨hrun, hshort, hsub⟩

end Grammar

end ParserAlgebra
