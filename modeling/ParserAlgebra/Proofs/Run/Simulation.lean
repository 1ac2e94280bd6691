import ParserAlgebra.Grammar
import ParserAlgebra.Proofs.Run.Related
/-!
# Simulations

What a parser does with the replies of its parts depends little on what these
say.  Unless it joins outputs, it asks a reply whether it is a success, asks a
success for its output and its rest, and may set another rest.  So a relation
between replies that agrees with these questions passes from the parts of a
parser to the whole.

* `Reply.Simulation`: the relation agrees with the questions.
* `Reply.Simulation.cases`: of two related replies either both accept the same,
  or both are failures.
* `Reply.Simulation.map` and its like: one lemma for each way to put parsers
  together, from related runs of the parts to related runs of the whole.
* `Grammar.run_related`: what parsers inherit from cells, cells inherit from
  their definitions, by induction on the limit.
-/

namespace ParserAlgebra

theorem Parser.record_outcome {s : Settings} (r : Record) :
    (record s r).outcome = .ok () := by
  unfold record
  split <;> rfl

namespace Reply

/-- A relation between replies that agrees with all that is asked of a reply when
outputs are not joined. -/
structure Simulation (S : Reply → Reply → Prop) : Prop where
  refl : ∀ r, S r r
  accepted?_eq : ∀ {r r'}, S r r' → r.accepted? = r'.accepted?
  /-- Replies stay related if the rest is set to the same text. -/
  withRest : ∀ {r r'}, S r r' → ∀ t, S (r.withRest t) (r'.withRest t)

namespace Simulation

variable {S : Reply → Reply → Prop} {s : Settings} {r r' : Reply}
variable {enter enter' : Nat → Text → Run Reply} {p p' q q' : Parser}
variable {input : Text}

/-- Related replies accept the same, or both are failures. -/
theorem cases (hS : Simulation S) (h : S r r') :
    (∃ v rest, r.accepted? = some (v, rest) ∧ r'.accepted? = some (v, rest)) ∨
    ∃ e t e' t', r = failure e t ∧ r' = failure e' t' := by
  have heq := hS.accepted?_eq h
  rcases r.fails_or_accepts with ⟨e, t, rfl⟩ | ⟨v, rest, haccept⟩
  · obtain ⟨e', t', rfl⟩ := eq_failure_of_accepted? heq.symm
    exact .inr ⟨e, t, e', t', rfl, rfl⟩
  · exact .inl ⟨v, rest, haccept, heq.symm.trans haccept⟩

theorem isSuccess_eq (hS : Simulation S) (h : S r r') :
    r.isSuccess = r'.isSuccess := by
  obtain ⟨v, rest, ha, ha'⟩ | ⟨e, t, e', t', rfl, rfl⟩ := hS.cases h
  · rw [isSuccess_of_accepted? ha, isSuccess_of_accepted? ha']
  · rfl

theorem map (hS : Simulation S)
    (hp : Run.Related S (p.eval s enter input) (p'.eval s enter' input))
    (f : Value → Except Fault Value) :
    Run.Related S ((p.map f).eval s enter input)
      ((p'.map f).eval s enter' input) := by
  refine Run.related_emit_bind (Run.related_bind hp fun r r' hr => ?_)
  obtain ⟨v, rest, ha, ha'⟩ | ⟨e, t, e', t', rfl, rfl⟩ := hS.cases hr
  · rw [map_of_accepted? ha, map_of_accepted? ha']
    exact Outcome.related_refl hS.refl _
  · exact Run.related_pure hr

theorem bind (hS : Simulation S)
    (hp : Run.Related S (p.eval s enter input) (p'.eval s enter' input))
    {f f' : Value → Parser}
    (hf : ∀ v t,
      Run.Related S ((f v).eval s enter t) ((f' v).eval s enter' t)) :
    Run.Related S ((p.bind f).eval s enter input)
      ((p'.bind f').eval s enter' input) := by
  refine Run.related_emit_bind (Run.related_bind hp fun r r' hr => ?_)
  obtain ⟨v, rest, ha, ha'⟩ | ⟨e, t, e', t', rfl, rfl⟩ := hS.cases hr
  · rw [onSuccess_of_accepted? ha, onSuccess_of_accepted? ha']
    exact hf v rest
  · exact Run.related_pure hr

/-- The choice between two replies asks whether they are successes and nothing
else. -/
theorem alternative (hS : Simulation S) (hr : S r r') {u u' : Reply}
    (hu : S u u') : S (r.alternative u) (r'.alternative u') := by
  obtain ⟨v, rest, ha, ha'⟩ | ⟨e, t, e', t', rfl, rfl⟩ := hS.cases hr
  · rwa [alternative_of_accepted? ha, alternative_of_accepted? ha']
  · simp only [Reply.alternative, hS.isSuccess_eq hu]
    split
    · exact hu
    · exact hr

theorem orElse (hS : Simulation S)
    (hp : Run.Related S (p.eval s enter input) (p'.eval s enter' input))
    (hq : Run.Related S (q.eval s enter input) (q'.eval s enter' input)) :
    Run.Related S ((p.orElse q).eval s enter input)
      ((p'.orElse q').eval s enter' input) := by
  refine Run.related_emit_bind (Run.related_bind hp fun r r' hr => ?_)
  rw [hS.isSuccess_eq hr]
  split
  · exact Run.related_pure hr
  · refine Run.related_bind hq fun u u' hu => ?_
    exact Run.related_pure (hS.alternative hr hu)

/-- The label that is replaced occurs in a record alone. -/
theorem label (hS : Simulation S)
    (hp : Run.Related S (p.eval s enter input) (p'.eval s enter' input))
    (text : Text) :
    Run.Related S ((p.label text).eval s enter input)
      ((p'.label text).eval s enter' input) := by
  refine Run.related_emit_bind (Run.related_bind
    (Outcome.related_refl (S := Eq) (fun _ => rfl) _) fun _ _ _ => ?_)
  refine Run.related_bind hp fun r r' hr => ?_
  obtain ⟨v, rest, ha, ha'⟩ | ⟨e, t, e', t', rfl, rfl⟩ := hS.cases hr
  · rw [onFailure_of_accepted? ha, onFailure_of_accepted? ha']
    exact Run.related_pure hr
  · simp only [onFailure, Run.Related, Run.outcome_bind, Parser.record_outcome,
      Except.bind]
    exact Run.related_pure (hS.refl _)

theorem ignore (hS : Simulation S)
    (hp : Run.Related S (p.eval s enter input) (p'.eval s enter' input)) :
    Run.Related S (p.ignore.eval s enter input) (p'.ignore.eval s enter' input) := by
  refine Run.related_emit_bind (Run.related_bind hp fun r r' hr => ?_)
  obtain ⟨v, rest, ha, ha'⟩ | ⟨e, t, e', t', rfl, rfl⟩ := hS.cases hr
  · rw [ignore_of_accepted? ha, ignore_of_accepted? ha']
    exact Run.related_pure (hS.refl _)
  · exact Run.related_pure hr

theorem keepFirst (hS : Simulation S)
    (hp : Run.Related S (p.eval s enter input) (p'.eval s enter' input))
    (hq : ∀ t, Run.Related S (q.eval s enter t) (q'.eval s enter' t)) :
    Run.Related S ((p.keepFirst q).eval s enter input)
      ((p'.keepFirst q').eval s enter' input) := by
  refine Run.related_emit_bind (Run.related_bind hp fun r r' hr => ?_)
  obtain ⟨v, rest, ha, ha'⟩ | ⟨e, t, e', t', rfl, rfl⟩ := hS.cases hr
  · simp only [isSuccess_of_accepted? ha, isSuccess_of_accepted? ha', if_true,
      rest_of_accepted? ha, rest_of_accepted? ha']
    refine Run.related_bind (hq rest) fun u u' hu => Run.related_pure ?_
    obtain ⟨w, last, hb, hb'⟩ | ⟨e, t, e', t', rfl, rfl⟩ := hS.cases hu
    · simp only [isSuccess_of_accepted? hb, isSuccess_of_accepted? hb', if_true,
        rest_of_accepted? hb, rest_of_accepted? hb']
      exact hS.withRest hr last
    · exact hu
  · exact Run.related_pure hr

theorem notFollowedBy (hS : Simulation S)
    (hp : Run.Related S (p.eval s enter input) (p'.eval s enter' input)) :
    Run.Related S (p.notFollowedBy.eval s enter input)
      (p'.notFollowedBy.eval s enter' input) := by
  refine Run.related_emit_bind (Run.related_bind hp fun r r' hr => ?_)
  rw [hS.isSuccess_eq hr]
  exact Run.related_pure (hS.refl _)

theorem many (hS : Simulation S)
    (hp : ∀ t, Run.Related S (p.eval s enter t) (p'.eval s enter' t)) :
    Run.Related S (p.many.eval s enter input) (p'.many.eval s enter' input) := by
  have hchain := chain_related (fun _ _ => hS.accepted?_eq) hp input.length input
  refine Run.related_emit_bind (Run.related_bind hchain fun vs vs' hvs => ?_)
  rw [hvs]
  exact Run.related_pure (hS.refl _)

theorem lookAhead (hS : Simulation S)
    (hp : Run.Related S (p.eval s enter input) (p'.eval s enter' input)) :
    Run.Related S (p.lookAhead.eval s enter input)
      (p'.lookAhead.eval s enter' input) := by
  refine Run.related_emit_bind (Run.related_bind hp fun r r' hr => ?_)
  rw [hS.isSuccess_eq hr]
  split
  · exact Run.related_pure (hS.withRest hr input)
  · exact Run.related_pure hr

end Simulation

end Reply

/-- **Simulation of grammars.**  If what related parsers do is related as soon as
what their cells do is, and the cells have related definitions, then the runs of
related parsers are related at every limit. -/
theorem Grammar.run_related
    {S : Reply → Reply → Prop} {R : Parser → Parser → Prop}
    {C : Nat → Prop} {g h : Grammar} {s : Settings}
    (heval : ∀ {enter enter' : Nat → Text → Run Reply},
      (∀ id, C id → ∀ t, Run.Related S (enter id t) (enter' id t)) →
      ∀ {p q}, R p q → ∀ input,
        Run.Related S (p.eval s enter input) (q.eval s enter' input))
    (hcells : ∀ id, C id → Option.Rel (Option.Rel R) g.cells[id]? h.cells[id]?)
    {p q : Parser} (hpq : R p q) (limit : Nat) (input : Text) :
    Run.Related S (g.run s limit p input) (h.run s limit q input) := by
  induction limit generalizing p q input with
  | zero =>
      refine heval (fun id _ t => ?_) hpq input
      exact Outcome.Related.error .unfinished
  | succ limit ih =>
      refine heval (fun id hid t => ?_) hpq input
      have hcell := hcells id hid
      simp only [enter]
      generalize g.cells[id]? = a, h.cells[id]? = b at hcell ⊢
      rcases hcell with (hdefinition | _) | _
      · exact ih hdefinition t
      · exact Outcome.Related.error (.fault .undefinedCell)
      · exact Outcome.Related.error (.fault .undefinedCell)

end ParserAlgebra
