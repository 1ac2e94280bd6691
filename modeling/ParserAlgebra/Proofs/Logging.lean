import ParserAlgebra.Proofs.Run.Congruence
/-!
# The log of a run

With debugging on, a labelled parser leaves a record when it is tried and another
when it fails.  The log is there for a reader, and no part of a run depends on
it: with debugging on and off, a parser has the same outcome, and does the same
on the way.

The records of a debugging run are nested as the labelled parsers are.  Each
attempt begins with its record, and the record of its failure, if there is one,
comes last, after those of all attempts inside.  A run that is cut short leaves
attempts open, so at any point of the log some attempts have no failure yet, but
no failure lacks its attempt.

* `Run.EqButRecords`: two runs differ in log records only.  This is a congruence,
  and the only place where debugging bears on a run is `Parser.record`.
* `Event.Nested`: the events of a run are nested as described, with the records
  that the settings ask for.
* `Parser.eval_nested` and `Grammar.run_nested`: the events of every run are
  nested, by induction on the parser and then on the limit.
* `Grammar.debugging_observes`: what this says about the two runs and their logs.
-/

namespace ParserAlgebra

namespace Settings

/-- The settings with debugging on. -/
def debugging (s : Settings) : Settings := { s with debug := true }

/-- The settings with debugging off. -/
def quiet (s : Settings) : Settings := { s with debug := false }

end Settings

namespace Event

/-- The record of a log event. -/
def record? : Event → Option Record
  | .logged r => some r
  | _ => none

/-- The event is no log event. -/
def isSilent : Event → Bool
  | .logged _ => false
  | _ => true

@[simp] theorem record?_entered (p : Parser) (input : Text) :
    (entered p input).record? = none := rfl

@[simp] theorem subRun?_entered (p : Parser) (input : Text) :
    (entered p input).subRun? = some (p, input) := rfl

end Event

namespace Record

/-- The record says that a parser is tried. -/
def isTrying : Record → Bool
  | .trying _ => true
  | _ => false

/-- The record says that a parser with this label has failed. -/
def isFailureOf (label : Text) : Record → Bool
  | .failed l _ _ => l == label
  | _ => false

@[simp] theorem isFailureOf_failed (label text expected excerpt : Text) :
    (failed text expected excerpt).isFailureOf label = (text == label) := rfl

/-- At no point of a log a label has more failures than attempts. -/
def Paired (log : List Record) : Prop :=
  ∀ (label : Text) (start : List Record), start <+: log →
    start.countP (·.isFailureOf label) ≤ start.count (.trying label)

variable {log log' : List Record}

theorem paired_nil : Paired [] := by
  intro label start hstart
  rw [List.prefix_nil.mp hstart]
  exact Nat.le_refl _

theorem Paired.append (h : Paired log) (h' : Paired log') : Paired (log ++ log') := by
  intro label start hstart
  rcases List.prefix_or_prefix_of_prefix hstart (List.prefix_append _ _) with
    hfirst | ⟨more, rfl⟩
  · exact h label start hfirst
  · have hfirst := h label log (List.prefix_refl _)
    have hmore := h' label more ((List.prefix_append_right_inj _).mp hstart)
    simp only [List.countP_append, List.count_append]
    omega

/-- An attempt may come first. -/
theorem Paired.attempt (h : Paired log) (text : Text) : Paired (trying text :: log) := by
  intro label start hstart
  rcases List.prefix_cons_iff.mp hstart with rfl | ⟨inside, rfl, hinside⟩
  · exact Nat.le_refl _
  · rw [List.countP_cons_of_neg Bool.false_ne_true]
    exact Nat.le_trans (h label inside hinside) List.count_le_count_cons

/-- The failure of an attempt that comes first may come last. -/
theorem Paired.failure (h : Paired log) (text expected excerpt : Text) :
    Paired (trying text :: (log ++ [failed text expected excerpt])) := by
  intro label start hstart
  rw [← List.cons_append] at hstart
  rcases List.prefix_concat_iff.mp hstart with rfl | hinside
  · have hlog := h label log (List.prefix_refl _)
    rw [List.cons_append, List.countP_cons_of_neg Bool.false_ne_true,
      List.countP_append, List.count_cons, List.count_append]
    by_cases hlabel : text = label
    · subst hlabel
      have hone : [failed text expected excerpt].countP (·.isFailureOf text) = 1 := by simp
      rw [hone, if_pos BEq.rfl]
      omega
    · have hnone : [failed text expected excerpt].countP (·.isFailureOf label) = 0 := by
        simp [hlabel]
      rw [hnone]
      omega
  · exact h.attempt text label start hinside

end Record

/-- The parser has a label of its own. -/
def Parser.isLabelled : Parser → Bool
  | .label _ _ => true
  | _ => false

namespace Run

variable {α : Type} {x y : Run α}

/-- The log of a run: its records, in order. -/
def records (x : Run α) : List Record := x.events.filterMap Event.record?

/-- Two runs are the same but for their records. -/
def EqButRecords ⦃α : Type⦄ (x y : Run α) : Prop :=
  x.outcome = y.outcome ∧
    x.events.filter Event.isSilent = y.events.filter Event.isSilent

theorem eqButRecords_congruence : Congruence EqButRecords where
  refl x := ⟨rfl, rfl⟩
  bind {α β x y f g} hxy hfg := by
    obtain ⟨houtcome, hevents⟩ := hxy
    refine ⟨?_, ?_⟩
    · rw [outcome_bind, outcome_bind, houtcome]
      exact congrArg y.outcome.bind (funext fun a => (hfg a).1)
    · rw [events_bind, events_bind, List.filter_append, List.filter_append,
        hevents, houtcome]
      cases y.outcome with
      | error stop => rfl
      | ok a => exact congrArg _ (hfg a).2

/-- Runs that are the same but for their records perform the same sub-runs. -/
theorem EqButRecords.subRuns_eq (h : EqButRecords x y) :
    x.subRuns = y.subRuns := by
  have hsilent : ∀ e : Event,
      (if e.isSilent then e.subRun? else none) = e.subRun? := by
    intro e
    cases e <;> rfl
  have hsubRuns : ∀ events : List Event,
      (events.filter Event.isSilent).filterMap Event.subRun? =
        events.filterMap Event.subRun? := by
    intro events
    simp only [List.filterMap_filter, hsilent]
  unfold subRuns
  rw [← hsubRuns x.events, h.2, hsubRuns]

end Run

/-- Runs whose settings differ in debugging only are the same but for their
records. -/
theorem Grammar.run_eqButRecords
    (g : Grammar) {s t : Settings} (h : s.eagerChoice = t.eagerChoice)
    (limit : Nat) (p : Parser) (input : Text) :
    Run.EqButRecords (g.run s limit p input) (g.run t limit p input) := by
  have hR := Run.eqButRecords_congruence
  have hrun : Run.EqButRecords (g.run s limit p input)
      (g.run t (0 + limit) p input) := by
    refine run_congr hR ?_ ?_ ?_ limit p input
    · intro id input
      exact hR.refl _
    · intro r
      unfold Parser.record
      split <;> split <;> exact ⟨rfl, rfl⟩
    · intro limit p q input hp hq
      exact Parser.orElse_congr hR h hp hq
  rwa [Nat.zero_add] at hrun

/-- The events of runs, with the records that these settings ask for.  An attempt
of a labelled parser is one block: its record comes first, and that of its
failure last.  The failure may be missing, since the parser may succeed or be cut
short. -/
inductive Event.Nested (s : Settings) : List Event → Prop
  | nil : Nested s []
  | append {before after : List Event} (hbefore : Nested s before)
      (hafter : Nested s after) : Nested s (before ++ after)
  | entered {p : Parser} (h : p.isLabelled = false) (input : Text) :
      Nested s [.entered p input]
  | probed (tag input : Text) : Nested s [.probed tag input]
  | attempt (text : Text) (p : Parser) (input : Text) {inside : List Event}
      (h : Nested s inside) :
      Nested s (.entered (.label text p) input ::
        ((Parser.record s (.trying text)).events ++ inside))
  | failure (text : Text) (p : Parser) (input expected excerpt : Text)
      {inside : List Event} (h : Nested s inside) :
      Nested s (.entered (.label text p) input ::
        ((Parser.record s (.trying text)).events ++ (inside ++
          (Parser.record s (.failed text expected excerpt)).events)))

variable {s : Settings}

namespace Event.Nested

variable {events : List Event}

theorem records_eq_nil (hs : s.debug = false) (h : Nested s events) :
    events.filterMap record? = [] := by
  have hrecord : ∀ r, (Parser.record s r).events = [] := by
    intro r
    simp [Parser.record, hs]
  induction h with
  | nil => rfl
  | append _ _ ihbefore ihafter =>
      rw [List.filterMap_append, ihbefore, ihafter, List.append_nil]
  | entered hp input => rfl
  | probed tag input => rfl
  | attempt text p input _ ih => simpa [hrecord] using ih
  | failure text p input expected excerpt _ ih => simpa [hrecord] using ih

section Debugging

variable (hs : s.debug = true)
include hs

theorem events_record (r : Record) : (Parser.record s r).events = [.logged r] := by
  simp [Parser.record, hs, Run.log, Run.emit]

theorem records_of_attempt (q : Parser) (input : Text) (r : Record) (inside : List Event) :
    (Event.entered q input :: ((Parser.record s r).events ++ inside)).filterMap record? =
      r :: inside.filterMap record? := by
  rw [events_record hs]
  rfl

theorem subRuns_of_attempt (q : Parser) (input : Text) (r : Record) (inside : List Event) :
    (Event.entered q input :: ((Parser.record s r).events ++ inside)).filterMap subRun? =
      (q, input) :: inside.filterMap subRun? := by
  rw [events_record hs]
  rfl

theorem records_of_failure (inside : List Event) (r : Record) :
    (inside ++ (Parser.record s r).events).filterMap record? =
      inside.filterMap record? ++ [r] := by
  rw [events_record hs, List.filterMap_append]
  rfl

theorem subRuns_of_failure (inside : List Event) (r : Record) :
    (inside ++ (Parser.record s r).events).filterMap subRun? =
      inside.filterMap subRun? := by
  rw [events_record hs, List.filterMap_append]
  exact List.append_nil _

/-- There is one record of an attempt for each labelled parser that is entered. -/
theorem countP_isTrying (h : Nested s events) :
    (events.filterMap record?).countP Record.isTrying =
      (events.filterMap subRun?).countP (·.1.isLabelled) := by
  induction h with
  | nil => rfl
  | append _ _ ihbefore ihafter =>
      simp only [List.filterMap_append, List.countP_append, ihbefore, ihafter]
  | entered hp input => simp [hp]
  | probed tag input => rfl
  | attempt text p input _ ih =>
      rw [records_of_attempt hs, subRuns_of_attempt hs, List.countP_cons_of_pos rfl,
        List.countP_cons_of_pos rfl, ih]
  | failure text p input expected excerpt _ ih =>
      rw [records_of_attempt hs, subRuns_of_attempt hs, records_of_failure hs,
        subRuns_of_failure hs, List.countP_cons_of_pos rfl,
        List.countP_cons_of_pos rfl, List.countP_append, ih]
      rfl

theorem paired_records (h : Nested s events) :
    Record.Paired (events.filterMap record?) := by
  induction h with
  | nil => exact Record.paired_nil
  | append _ _ ihbefore ihafter =>
      rw [List.filterMap_append]
      exact ihbefore.append ihafter
  | entered hp input => exact Record.paired_nil
  | probed tag input => exact Record.paired_nil
  | attempt text p input _ ih =>
      rw [records_of_attempt hs]
      exact ih.attempt text
  | failure text p input expected excerpt _ ih =>
      rw [records_of_attempt hs, records_of_failure hs]
      exact ih.failure text expected excerpt

end Debugging

end Event.Nested

namespace Run

variable {α β : Type}

theorem nested_bind
    {x : Run α} {f : α → Run β}
    (hx : Event.Nested s x.events)
    (hf : ∀ a, Event.Nested s (f a).events) :
    Event.Nested s (x >>= f).events := by
  rw [events_bind]
  cases x.outcome with
  | error stop => simpa [Except.toOption] using hx
  | ok a => exact hx.append (hf a)

/-- A run that begins by entering a parser without a label. -/
theorem nested_emit_bind
    {p : Parser} (hp : p.isLabelled = false) {input : Text} {f : Unit → Run β}
    (hf : Event.Nested s (f ()).events) :
    Event.Nested s (emit (.entered p input) >>= f).events :=
  nested_bind (.entered hp input) fun _ => hf

end Run

/-- The events of a repetition are nested if those of its steps are. -/
theorem chain_nested
    {step : Text → Run Reply}
    (h : ∀ t, Event.Nested s (step t).events)
    (bound : Nat) (input : Text) :
    Event.Nested s (chain step bound input).events := by
  induction bound generalizing input with
  | zero => exact Run.nested_bind (h input) fun _ => .nil
  | succ bound ih =>
      refine Run.nested_bind (h input) fun r => ?_
      split
      · split
        · exact Run.nested_bind (ih _) fun _ => .nil
        · exact .nil
      · exact .nil

namespace Parser

variable {enter : Nat → Text → Run Reply}

theorem events_record_bind {β : Type} (r : Record) (f : Unit → Run β) :
    (record s r >>= f).events = (record s r).events ++ (f ()).events := by
  refine Run.events_bind_of_ok ?_
  unfold record
  split <;> rfl

/-- The run of a labelled parser is one attempt. -/
theorem label_nested
    {p : Parser} {input : Text}
    (h : Event.Nested s (p.eval s enter input).events)
    (text : Text) :
    Event.Nested s ((label text p).eval s enter input).events := by
  simp only [eval]
  rw [Run.events_bind_of_ok (a := ()) rfl, events_record_bind]
  cases hp : (p.eval s enter input).outcome with
  | error stop =>
      have hevents : ∀ f : Reply → Run Reply,
          (p.eval s enter input >>= f).events = (p.eval s enter input).events := by
        intro f
        simp [Run.events_bind, hp, Except.toOption]
      rw [hevents]
      exact .attempt text p input h
  | ok r =>
      rw [Run.events_bind_of_ok hp]
      cases r with
      | success v rest =>
          rw [Reply.onFailure, Run.events_pure, List.append_nil]
          · exact .attempt text p input h
          · rintro _ _ ⟨⟩
      | discarded rest =>
          rw [Reply.onFailure, Run.events_pure, List.append_nil]
          · exact .attempt text p input h
          · rintro _ _ ⟨⟩
      | failure expected rest =>
          rw [Reply.onFailure, events_record_bind, Run.events_pure, List.append_nil]
          exact .failure text p input expected _ h

/-- The events of a run are nested if those of the cells are. -/
theorem eval_nested
    (henter : ∀ id input, Event.Nested s (enter id input).events)
    (p : Parser) (input : Text) :
    Event.Nested s (p.eval s enter input).events := by
  induction p generalizing input with
  | leaf l => exact Run.nested_emit_bind rfl .nil
  | map p f ih =>
      refine Run.nested_emit_bind rfl (Run.nested_bind (ih input) fun r => ?_)
      exact .nil
  | bind p f ihp ihf =>
      refine Run.nested_emit_bind rfl (Run.nested_bind (ihp input) fun r => ?_)
      cases r with
      | success v rest => exact ihf v rest
      | discarded rest => exact ihf .nothing rest
      | failure expected rest => exact .nil
  | orElse p q ihp ihq =>
      refine Run.nested_emit_bind rfl (Run.nested_bind (ihp input) fun r => ?_)
      split
      · exact .nil
      · exact Run.nested_bind (ihq input) fun _ => .nil
  | label text p ih => exact label_nested (ih input) text
  | ignore p ih =>
      exact Run.nested_emit_bind rfl (Run.nested_bind (ih input) fun _ => .nil)
  | keepFirst p q ihp ihq =>
      refine Run.nested_emit_bind rfl (Run.nested_bind (ihp input) fun r => ?_)
      split
      · exact Run.nested_bind (ihq r.rest) fun _ => .nil
      · exact .nil
  | notFollowedBy p ih =>
      exact Run.nested_emit_bind rfl (Run.nested_bind (ih input) fun _ => .nil)
  | append p q concat ihp ihq =>
      refine Run.nested_emit_bind rfl (Run.nested_bind (ihp input) fun r => ?_)
      split
      · exact Run.nested_bind (ihq r.rest) fun _ => .nil
      · exact .nil
  | many p ih =>
      have hchain := chain_nested ih input.length input
      exact Run.nested_emit_bind rfl (Run.nested_bind hchain fun _ => .nil)
  | lookAhead p ih =>
      exact Run.nested_emit_bind rfl (Run.nested_bind (ih input) fun _ => .nil)
  | probe tag p ih =>
      refine Run.nested_emit_bind rfl ?_
      exact Run.nested_bind (.probed tag input) fun _ => ih input
  | cell id => exact Run.nested_emit_bind rfl (henter id input)

end Parser

namespace Grammar

/-- The events of every run are nested. -/
theorem run_nested (g : Grammar) (limit : Nat) (p : Parser) (input : Text) :
    Event.Nested s (g.run s limit p input).events := by
  induction limit generalizing p input with
  | zero => exact Parser.eval_nested (fun _ _ => .nil) p input
  | succ limit ih =>
      refine Parser.eval_nested (fun id t => ?_) p input
      simp only [enter]
      split
      · exact ih _ t
      · exact .nil

/-- **Debugging observes.**  A run with debugging on has the outcome of the run
with debugging off and performs the same sub-runs in the same order.  The run with
debugging off leaves no records.  In the log of the other, at no point a label has
more failures than attempts, and there are as many attempts as labelled parsers
were run. -/
theorem debugging_observes (g : Grammar) (s : Settings) (limit : Nat) (p : Parser)
    (input : Text) :
    (g.run s.debugging limit p input).outcome =
      (g.run s.quiet limit p input).outcome ∧
    (g.run s.debugging limit p input).subRuns =
      (g.run s.quiet limit p input).subRuns ∧
    (g.run s.quiet limit p input).records = [] ∧
    (∀ (label : Text) (start : List Record),
      start <+: (g.run s.debugging limit p input).records →
        start.countP (·.isFailureOf label) ≤ start.count (.trying label)) ∧
    (g.run s.debugging limit p input).records.countP Record.isTrying =
      (g.run s.debugging limit p input).subRuns.countP (·.1.isLabelled) := by
  have hchoice : s.debugging.eagerChoice = s.quiet.eagerChoice := rfl
  have heq := g.run_eqButRecords hchoice limit p input
  have hnested : Event.Nested s.debugging
      (g.run s.debugging limit p input).events := g.run_nested limit p input
  exact ⟨heq.1, heq.subRuns_eq, (g.run_nested limit p input).records_eq_nil rfl,
    hnested.paired_records rfl, hnested.countP_isTrying rfl⟩

/-- The failure of the inner label comes before that of the outer one. -/
example : (({} : Grammar).run (Settings.debugging {}) 0
    (((Parser.char 'a').label "letter").andThen (.char 'b')) "b").records =
    [.trying "sequence", .trying "letter", .failed "letter" "char(a)" "b",
      .failed "sequence" "letter" "b"] := rfl

end Grammar

end ParserAlgebra
