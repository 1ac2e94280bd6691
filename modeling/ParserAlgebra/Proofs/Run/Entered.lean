import ParserAlgebra.Proofs.Run.Limit
/-!
# The sub-runs of a run that returns

Nothing inside a run can catch a fault or go on from an unfinished part.  So if
a run gives a reply, each of the sub-runs that it entered on the way has given
one as well (`exists_returns_of_mem_subRuns`).  The event that enters a sub-run
does not tell the limit that was left at this place, so the statement is about
some limit.
-/

namespace ParserAlgebra

variable {s : Settings} {C : Event → Prop}

/-- The events of a repetition are those of its steps. -/
theorem chain_traces
    {step : Text → Run Reply}
    (h : ∀ t, (step t).Traces C)
    (bound : Nat) (input : Text) :
    (chain step bound input).Traces C := by
  induction bound generalizing input with
  | zero =>
      exact Run.traces_bind (h input) fun _ => Run.traces_pure _
  | succ bound ih =>
      refine Run.traces_bind (h input) fun r => ?_
      split
      · split
        · exact Run.traces_bind (ih _) fun _ => Run.traces_pure _
        · exact Run.traces_pure _
      · exact Run.traces_pure _

namespace Parser

variable {enter : Nat → Text → Run Reply}

theorem record_traces (hlogged : ∀ r, C (.logged r)) (r : Record) :
    (record s r).Traces C := by
  unfold record
  split
  · intro _ _ e he
    rw [List.mem_singleton.mp he]
    exact hlogged r
  · exact Run.traces_pure _

/-- What is entered by a run that gives a reply has a property if it can be
shown from a reply of the sub-run, for the parser itself and, by induction,
for all of its parts. -/
theorem eval_traces
    (hentered : ∀ p input r, (p.eval s enter input).outcome = .ok r →
      C (.entered p input))
    (hprobed : ∀ tag input, C (.probed tag input))
    (hlogged : ∀ r, C (.logged r))
    (henter : ∀ id input, (enter id input).Traces C)
    (p : Parser) (input : Text) :
    (p.eval s enter input).Traces C := by
  induction p generalizing input with
  | leaf l =>
      refine Run.traces_emit_bind (hentered (leaf l) input) ?_
      exact Run.traces_of_events_eq_nil rfl
  | map p f ih =>
      refine Run.traces_emit_bind (hentered (map p f) input) ?_
      exact Run.traces_bind (ih input) fun _ => Run.traces_of_events_eq_nil rfl
  | bind p f ihp ihf =>
      refine Run.traces_emit_bind (hentered (bind p f) input) ?_
      refine Run.traces_bind (ihp input) fun r => ?_
      cases r with
      | success v rest => exact ihf v rest
      | discarded rest => exact ihf .nothing rest
      | failure expected rest => exact Run.traces_pure _
  | orElse p q ihp ihq =>
      refine Run.traces_emit_bind (hentered (orElse p q) input) ?_
      refine Run.traces_bind (ihp input) fun r => ?_
      split
      · exact Run.traces_pure _
      · exact Run.traces_bind (ihq input) fun _ => Run.traces_pure _
  | label text p ih =>
      refine Run.traces_emit_bind (hentered (label text p) input) ?_
      refine Run.traces_bind (record_traces hlogged _) fun _ => ?_
      refine Run.traces_bind (ih input) fun r => ?_
      cases r with
      | success v rest => exact Run.traces_pure _
      | discarded rest => exact Run.traces_pure _
      | failure expected rest =>
          refine Run.traces_bind (record_traces hlogged _) fun _ => ?_
          exact Run.traces_pure _
  | ignore p ih =>
      refine Run.traces_emit_bind (hentered (ignore p) input) ?_
      exact Run.traces_bind (ih input) fun _ => Run.traces_pure _
  | keepFirst p q ihp ihq =>
      refine Run.traces_emit_bind (hentered (keepFirst p q) input) ?_
      refine Run.traces_bind (ihp input) fun r => ?_
      split
      · exact Run.traces_bind (ihq r.rest) fun _ => Run.traces_pure _
      · exact Run.traces_pure _
  | notFollowedBy p ih =>
      refine Run.traces_emit_bind (hentered (notFollowedBy p) input) ?_
      exact Run.traces_bind (ih input) fun _ => Run.traces_pure _
  | append p q concat ihp ihq =>
      refine Run.traces_emit_bind (hentered (append p q concat) input) ?_
      refine Run.traces_bind (ihp input) fun r => ?_
      split
      · refine Run.traces_bind (ihq r.rest) fun _ => ?_
        exact Run.traces_of_events_eq_nil rfl
      · exact Run.traces_pure _
  | many p ih =>
      refine Run.traces_emit_bind (hentered (many p) input) ?_
      exact Run.traces_bind (chain_traces ih _ input) fun _ => Run.traces_pure _
  | lookAhead p ih =>
      refine Run.traces_emit_bind (hentered (lookAhead p) input) ?_
      exact Run.traces_bind (ih input) fun _ => Run.traces_pure _
  | probe tag p ih =>
      refine Run.traces_emit_bind (hentered (probe tag p) input) ?_
      exact Run.traces_emit_bind (fun _ _ => hprobed tag input) (ih input)
  | cell id =>
      exact Run.traces_emit_bind (hentered (cell id) input) (henter id input)

end Parser

namespace Grammar

variable {g : Grammar} {p q : Parser} {input t : Text} {limit : Nat}

/-- The event enters a sub-run only if that returns a reply. -/
def EntersReturning (g : Grammar) (s : Settings) (e : Event) : Prop :=
  ∀ q t, e = .entered q t → ∃ r, g.Returns s q t r

theorem run_traces_entersReturning (limit : Nat) (p : Parser) (input : Text) :
    (g.run s limit p input).Traces (g.EntersReturning s) := by
  have hentered : ∀ limit p input r, (g.run s limit p input).outcome = .ok r →
      g.EntersReturning s (.entered p input) := by
    intro limit p input r h q t he
    cases he
    exact ⟨r, limit, h⟩
  have hprobed : ∀ tag input, g.EntersReturning s (.probed tag input) := by
    intro tag input q t he
    cases he
  have hlogged : ∀ r, g.EntersReturning s (.logged r) := by
    intro r q t he
    cases he
  induction limit generalizing p input with
  | zero =>
      have hcells : ∀ id t, (g.enter s 0 id t).Traces (g.EntersReturning s) :=
        fun _ _ => Run.traces_of_events_eq_nil rfl
      exact Parser.eval_traces (hentered 0) hprobed hlogged hcells p input
  | succ limit ih =>
      have henter := hentered (limit + 1)
      refine Parser.eval_traces henter hprobed hlogged ?_ p input
      intro id t
      simp only [enter]
      split
      · exact ih _ t
      · exact Run.traces_of_events_eq_nil rfl

/-- Every sub-run of a run that gives a reply gives one too. -/
theorem exists_returns_of_mem_subRuns
    {r : Reply}
    (h : (g.run s limit p input).outcome = .ok r)
    (hsub : (q, t) ∈ (g.run s limit p input).subRuns) :
    ∃ r', g.Returns s q t r' := by
  have hmem := Run.mem_subRuns.mp hsub
  exact run_traces_entersReturning limit p input r h _ hmem q t rfl

end Grammar

end ParserAlgebra
