import ParserAlgebra.Proofs.Choice.ShortCircuit
import ParserAlgebra.Proofs.Run.Entered
/-!
# What eager choice returns

The two modes of choice are documented to give the same results.  One half of it
holds: what eager choice returns, short-circuit choice returns.  The other half
does not, since the second side of a choice may stop with a fault, or never end,
where the first side has succeeded (`exists_shortCircuit_not_eager`).

The exact condition for the eager run to return is that the short-circuit run
returns, and that at each choice in it whose second side is skipped, the second
side would have returned when run eagerly, with any reply
(`returns_eager_iff`).  The skipped runs may need more nesting than the others,
but they are finitely many, so one amount is enough for all.
-/

namespace ParserAlgebra

/-- If the first run gives a result and its events have the property, then the
second gives the same result. -/
def Run.Lifts (C : Event → Prop) ⦃α : Type⦄ (x y : Run α) : Prop :=
  ∀ a, x.outcome = .ok a → (∀ e ∈ x.events, C e) → y.outcome = .ok a

theorem Run.lifts_bind
    {C : Event → Prop} {α β : Type} {x y : Run α} {f g : α → Run β}
    (hxy : Run.Lifts C x y)
    (hfg : ∀ a, x.outcome = .ok a → Run.Lifts C (f a) (g a)) :
    Run.Lifts C (x >>= f) (y >>= g) := by
  intro b hb hC
  obtain ⟨a, ha, hab⟩ := outcome_bind_eq_ok_iff.mp hb
  rw [events_bind_of_ok ha] at hC
  have hya : y.outcome = .ok a :=
    hxy a ha fun e he => hC e (List.mem_append_left _ he)
  have hgb : (g a).outcome = .ok b :=
    hfg a ha b hab fun e he => hC e (List.mem_append_right _ he)
  exact outcome_bind_eq_ok_iff.mpr ⟨a, hya, hgb⟩

/-- What the first run goes on with may be compared under the property of its
first event. -/
theorem Run.lifts_emit_bind
    {C : Event → Prop} {α : Type} {e : Event} {f g : Unit → Run α}
    (h : C e → Run.Lifts C (f ()) (g ())) :
    Run.Lifts C (Run.emit e >>= f) (Run.emit e >>= g) := by
  intro a ha hC
  have he : C e := hC e List.mem_cons_self
  exact Run.lifts_bind (fun _ hb _ => hb) (fun _ _ => h he) a ha hC

theorem Run.lifts_congruence (C : Event → Prop) :
    Run.Congruence (Run.Lifts C) where
  refl _ _ ha _ := ha
  bind hxy hfg := Run.lifts_bind hxy fun _ _ => hfg _

namespace Grammar

variable {g : Grammar} {s : Settings} {p q : Parser} {input : Text} {r : Reply}

/-- If the event enters a choice whose first side succeeds, then the eager run
of the second side gives a reply within the limit. -/
def SkipsWithin (g : Grammar) (s : Settings) (limit : Nat) (e : Event) : Prop :=
  ∀ p q t, e = .entered (p.orElse q) t →
    (∃ r, g.Returns s.shortCircuit p t r ∧ r.isSuccess) →
    ∃ r, (g.run s.eager limit q t).outcome = .ok r

theorem SkipsWithin.mono
    {limit limit' : Nat} {e : Event}
    (h : g.SkipsWithin s limit e)
    (hle : limit ≤ limit') :
    g.SkipsWithin s limit' e := by
  intro p q t he hsucc
  obtain ⟨r, hr⟩ := h p q t he hsucc
  exact ⟨r, run_eq_ok_of_le hr hle⟩

/-- At a choice, the eager run returns what the other does if the skipped side
returns. -/
theorem orElse_lifts
    {extra limit : Nat}
    (hp : Run.Lifts (g.SkipsWithin s extra)
      (g.run s.shortCircuit limit p input)
      (g.run s.eager (extra + limit) p input))
    (hq : Run.Lifts (g.SkipsWithin s extra)
      (g.run s.shortCircuit limit q input)
      (g.run s.eager (extra + limit) q input)) :
    Run.Lifts (g.SkipsWithin s extra)
      (g.run s.shortCircuit limit (p.orElse q) input)
      (g.run s.eager (extra + limit) (p.orElse q) input) := by
  have hR := Run.lifts_congruence (g.SkipsWithin s extra)
  rw [run, run, Parser.eval_orElse_shortCircuit, Parser.eval_orElse_eager]
  refine Run.lifts_emit_bind fun hentry => Run.lifts_bind hp fun a ha => ?_
  by_cases hsucc : a.isSuccess
  · rw [if_pos hsucc]
    obtain ⟨b, hb⟩ := hentry p q input rfl ⟨a, ⟨limit, ha⟩, hsucc⟩
    have hb' : (g.run s.eager (extra + limit) q input).outcome = .ok b :=
      run_eq_ok_of_le hb (Nat.le_add_right extra limit)
    intro c hc _
    cases hc
    refine Run.outcome_bind_eq_ok_iff.mpr ⟨b, hb', ?_⟩
    rw [Reply.alternative_of_isSuccess hsucc]
    rfl
  · rw [if_neg hsucc]
    exact hR.bind hq fun _ => hR.refl _

/-- With enough nesting for every side that short-circuit choice skips, the
eager run gives the same reply. -/
theorem run_lifts (extra limit : Nat) (p : Parser) (input : Text) :
    Run.Lifts (g.SkipsWithin s extra) (g.run s.shortCircuit limit p input)
      (g.run s.eager (extra + limit) p input) := by
  have hR := Run.lifts_congruence (g.SkipsWithin s extra)
  refine run_congr hR ?_ ?_ ?_ limit p input
  · intro id t r hr
    cases hr
  · intro r
    exact hR.refl _
  · intro limit p q t hp hq
    exact orElse_lifts hp hq

/-- Finitely many events have a common limit. -/
theorem exists_skipsWithin {events : List Event}
    (h : ∀ e ∈ events, ∃ limit, g.SkipsWithin s limit e) :
    ∃ limit, ∀ e ∈ events, g.SkipsWithin s limit e := by
  induction events with
  | nil => exact ⟨0, fun e he => by cases he⟩
  | cons e events ih =>
      obtain ⟨m, hm⟩ := h e List.mem_cons_self
      obtain ⟨n, hn⟩ := ih fun e' he' => h e' (List.mem_cons_of_mem e he')
      refine ⟨max m n, fun e' he' => ?_⟩
      rcases List.mem_cons.mp he' with rfl | he'
      · exact hm.mono (Nat.le_max_left m n)
      · exact (hn e' he').mono (Nat.le_max_right m n)

/-- An event is within some limit if the side skipped there returns when run
eagerly. -/
theorem exists_skipsWithin_of_returns
    {e : Event}
    (h : ∀ p q t, e = .entered (p.orElse q) t →
      (∃ r, g.Returns s.shortCircuit p t r ∧ r.isSuccess) →
      ∃ r, g.Returns s.eager q t r) :
    ∃ limit, g.SkipsWithin s limit e := by
  by_cases hskip : ∃ p q t, e = .entered (p.orElse q) t ∧
      ∃ r, g.Returns s.shortCircuit p t r ∧ r.isSuccess
  · obtain ⟨p, q, t, rfl, hsucc⟩ := hskip
    obtain ⟨r, limit, hr⟩ := h p q t rfl hsucc
    refine ⟨limit, fun p' q' t' he _ => ?_⟩
    cases he
    exact ⟨r, hr⟩
  · refine ⟨0, fun p q t he hsucc => ?_⟩
    exact absurd ⟨p, q, t, he, hsucc⟩ hskip

/-- A choice returns in an eager run only if its second side does. -/
theorem exists_returns_right_of_orElse
    (h : g.Returns s.eager (p.orElse q) input r) :
    ∃ r', g.Returns s.eager q input r' := by
  obtain ⟨limit, h⟩ := h
  rw [run, Parser.eval_orElse_eager] at h
  obtain ⟨_, _, h⟩ := Run.outcome_bind_eq_ok_iff.mp h
  obtain ⟨a, _, h⟩ := Run.outcome_bind_eq_ok_iff.mp h
  obtain ⟨b, hb, _⟩ := Run.outcome_bind_eq_ok_iff.mp h
  exact ⟨b, limit, hb⟩

/-- **When eager choice returns.**  The eager run returns a reply exactly when
the short-circuit run does and, at every choice in it whose first side
succeeds, the second side returns some reply when it is run eagerly as
well. -/
theorem returns_eager_iff :
    g.Returns s.eager p input r ↔
      ∃ limit, (g.run s.shortCircuit limit p input).outcome = .ok r ∧
        ∀ p' q' t,
          (p'.orElse q', t) ∈ (g.run s.shortCircuit limit p input).subRuns →
          (∃ r', g.Returns s.shortCircuit p' t r' ∧ r'.isSuccess) →
          ∃ r', g.Returns s.eager q' t r' := by
  constructor
  · rintro ⟨limit, h⟩
    obtain ⟨hshort, hevents⟩ := run_refines r h
    refine ⟨limit, hshort, ?_⟩
    intro p' q' t hsub _
    have hmem : (p'.orElse q', t) ∈ (g.run s.eager limit p input).subRuns :=
      (hevents.filterMap _).subset hsub
    obtain ⟨r', hr'⟩ := exists_returns_of_mem_subRuns h hmem
    exact exists_returns_right_of_orElse hr'
  · rintro ⟨limit, hshort, hskip⟩
    have hevent : ∀ e ∈ (g.run s.shortCircuit limit p input).events,
        ∃ extra, g.SkipsWithin s extra e := by
      intro e he
      refine exists_skipsWithin_of_returns fun p' q' t he' hsucc => ?_
      rw [he'] at he
      exact hskip p' q' t (Run.mem_subRuns.mpr he) hsucc
    obtain ⟨extra, hextra⟩ := exists_skipsWithin hevent
    exact ⟨extra + limit, run_lifts extra limit p input r hshort hextra⟩

/-- The letter is read by the first side of the choice, and the function of
the second side, whose output nobody asks for, refuses it. -/
theorem exists_shortCircuit_not_eager :
    ∃ (p : Parser) (input : Text) (r : Reply),
      ({} : Grammar).Returns (Settings.shortCircuit {}) p input r ∧
      ¬ ∃ r', ({} : Grammar).Returns (Settings.eager {}) p input r' := by
  let refusing := (Parser.char 'a').map fun _ => .error (.rejected "boom")
  refine ⟨(Parser.char 'a').orElse refusing, "a",
    .success (.text "a") [], ⟨0, rfl⟩, ?_⟩
  rintro ⟨r', limit, h⟩
  have hfault : (({} : Grammar).run (Settings.eager {}) limit
      ((Parser.char 'a').orElse refusing) "a").outcome =
        .error (.fault (.rejected "boom")) := rfl
  rw [hfault] at h
  cases h

end Grammar

end ParserAlgebra
