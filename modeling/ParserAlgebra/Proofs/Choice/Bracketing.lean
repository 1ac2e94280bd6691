import ParserAlgebra.Parser.Choice
import ParserAlgebra.Proofs.Bracketing
import ParserAlgebra.Proofs.Run.Outcome
/-!
# Brackets around alternatives

A choice between several parsers is made of choices between two, and how these
are nested makes no difference: neither to the outcome nor to which of the
alternatives are run, in which order and on which text
(`choice_ignores_brackets`).  This is said of every limit on nesting, so it is
true of runs that never end as well.

A `Trial` is what can be seen of a choice from outside, its outcome and the
alternatives that were run.  The trial of a pair in brackets is made from those
of its sides by `Trial.orElse`, which is associative, so all bracketings of the
same alternatives have the same trial.  For brackets that close at the end it is
found alternative by alternative (`Trial.chosen_ofList`).
-/

namespace ParserAlgebra

/-- No alternative is run after one with this outcome. -/
def Settles (eager : Bool) : Outcome Reply → Bool
  | .error _ => true
  | .ok r => r.isSuccess && !eager

/-- The alternatives of a choice that are run, in order, and the outcome. -/
@[ext] structure Trial where
  tried : List Parser
  outcome : Outcome Reply

/-- **The choice between some alternatives**, whose answers to the text are
given. -/
inductive Chosen (eager : Bool) (answer : Parser → Outcome Reply) :
    List Parser → Trial → Prop where
  /-- An alternative that does not return ends the choice.  Those before it
  return, and succeed only if choice is eager. -/
  | stopped (before after : List Parser) {p : Parser} {stop : Stop}
      (hbefore : ∀ q ∈ before, ∃ r, answer q = .ok r ∧ (r.isSuccess → eager))
      (hstop : answer p = .error stop) :
      Chosen eager answer (before ++ p :: after) ⟨before ++ [p], .error stop⟩
  /-- The first alternative that succeeds is the last to be run. -/
  | first (before after : List Parser) {p : Parser} {r : Reply} (heager : eager = false)
      (hbefore : ∀ q ∈ before, ∃ e t, answer q = .ok (.failure e t))
      (hp : answer p = .ok r) (hsuccess : r.isSuccess) :
      Chosen eager answer (before ++ p :: after) ⟨before ++ [p], .ok r⟩
  /-- All are run, and the first that succeeds is taken. -/
  | firstOfAll (before after : List Parser) {p : Parser} {r : Reply} (heager : eager = true)
      (hbefore : ∀ q ∈ before, ∃ e t, answer q = .ok (.failure e t))
      (hp : answer p = .ok r) (hsuccess : r.isSuccess)
      (hafter : ∀ q ∈ after, ∃ r', answer q = .ok r') :
      Chosen eager answer (before ++ p :: after) ⟨before ++ p :: after, .ok r⟩
  /-- All are run and fail, and the failure of the first is taken. -/
  | failed {p : Parser} {after : List Parser} {e t : Text} (hp : answer p = .ok (.failure e t))
      (hafter : ∀ q ∈ after, ∃ e' t', answer q = .ok (.failure e' t')) :
      Chosen eager answer (p :: after) ⟨p :: after, .ok (.failure e t)⟩

namespace Trial

variable {eager : Bool} {x y z : Trial} {answer : Parser → Outcome Reply}

/-- One alternative is run. -/
def alone (answer : Parser → Outcome Reply) (p : Parser) : Trial where
  tried := [p]
  outcome := answer p

/-- No alternative is left.  The label of this failure is never seen. -/
def nothing : Trial where
  tried := []
  outcome := .ok (.failure [] [])

/-- The second trial is made if the first does not settle the choice. -/
def orElse (eager : Bool) (x y : Trial) : Trial :=
  if Settles eager x.outcome then x
  else
    { tried := x.tried ++ y.tried
      outcome := x.outcome.bind fun r => y.outcome.map r.alternative }

theorem orElse_of_settles (h : Settles eager x.outcome = true) : x.orElse eager y = x :=
  if_pos h

theorem orElse_of_open (h : ¬ Settles eager x.outcome = true) :
    x.orElse eager y = ⟨x.tried ++ y.tried, x.outcome.bind fun r => y.outcome.map r.alternative⟩ :=
  if_neg h

theorem exists_reply_of_open {o : Outcome Reply} (h : ¬ Settles eager o = true) :
    ∃ r, o = .ok r ∧ (r.isSuccess → eager) := by
  cases o with
  | error stop => exact absurd rfl h
  | ok r =>
      refine ⟨r, rfl, fun hsuccess => ?_⟩
      simpa [Settles, hsuccess] using h

theorem orElse_nothing (eager : Bool) (x : Trial) : x.orElse eager nothing = x := by
  by_cases h : Settles eager x.outcome
  · exact orElse_of_settles h
  · rw [orElse_of_open h]
    apply Trial.ext
    · exact List.append_nil x.tried
    · obtain ⟨r, hr, -⟩ := exists_reply_of_open h
      rw [hr]
      cases r <;> rfl

/-- After an open outcome, the choice is settled if the second side settles it. -/
theorem settles_bind {o : Outcome Reply} (h : ¬ Settles eager o = true) (o' : Outcome Reply) :
    Settles eager (o.bind fun r => o'.map r.alternative) = Settles eager o' := by
  obtain ⟨r, rfl, heager⟩ := exists_reply_of_open h
  cases o' with
  | error stop => rfl
  | ok r' =>
      cases r with
      | failure e t => cases r' <;> rfl
      | success v t =>
          obtain rfl := heager rfl
          exact (Bool.and_false r'.isSuccess).symm
      | discarded t =>
          obtain rfl := heager rfl
          exact (Bool.and_false r'.isSuccess).symm

theorem orElse_assoc (eager : Bool) (x y z : Trial) :
    (x.orElse eager y).orElse eager z = x.orElse eager (y.orElse eager z) := by
  by_cases hx : Settles eager x.outcome
  · simp only [orElse_of_settles hx]
  · have hxy := settles_bind hx y.outcome
    rw [orElse_of_open hx, orElse_of_open hx]
    by_cases hy : Settles eager y.outcome
    · rw [orElse_of_settles hy]
      exact orElse_of_settles (hxy.trans hy)
    · rw [orElse_of_open hy, orElse_of_open (by rwa [hxy])]
      obtain ⟨r, hr, -⟩ := exists_reply_of_open hx
      obtain ⟨r', hr', -⟩ := exists_reply_of_open hy
      rw [hr, hr']
      apply Trial.ext
      · exact List.append_assoc x.tried y.tried z.tried
      · cases z.outcome with
        | error stop => rfl
        | ok r'' => exact congrArg Except.ok (Reply.alternative_assoc r r' r'')

/-- The trial of alternatives whose brackets close at the end. -/
def ofList (eager : Bool) (answer : Parser → Outcome Reply) (ps : List Parser) : Trial :=
  ps.foldr (fun p x => (alone answer p).orElse eager x) nothing

theorem chosen_alone (p : Parser) : Chosen eager answer [p] (alone answer p) := by
  cases hp : answer p with
  | error stop =>
      rw [alone, hp]
      exact Chosen.stopped [] [] (List.forall_mem_nil _) hp
  | ok r =>
      rw [alone, hp]
      rcases r.fails_or_accepts with ⟨e, t, rfl⟩ | ⟨v, rest, haccept⟩
      · exact Chosen.failed hp (List.forall_mem_nil _)
      · have hsuccess := Reply.isSuccess_of_accepted? haccept
        cases eager with
        | false => exact Chosen.first [] [] rfl (List.forall_mem_nil _) hp hsuccess
        | true =>
            exact Chosen.firstOfAll [] [] rfl (List.forall_mem_nil _) hp hsuccess
              (List.forall_mem_nil _)

/-- In front of the others, an alternative that does not return. -/
theorem chosen_cons_of_error {p : Parser} {ps : List Parser} {stop : Stop}
    (hp : answer p = .error stop) (x : Trial) :
    Chosen eager answer (p :: ps) ((alone answer p).orElse eager x) := by
  have hsettles : Settles eager (alone answer p).outcome = true := by
    rw [alone, hp]
    rfl
  rw [orElse_of_settles hsettles, alone, hp]
  exact Chosen.stopped [] ps (List.forall_mem_nil _) hp

/-- In front of the others, an alternative that succeeds.  Eager choice runs
the others as well, to see whether they return. -/
theorem chosen_cons_of_success {p : Parser} {ps : List Parser} {r : Reply}
    (hp : answer p = .ok r) (hsuccess : r.isSuccess) (h : Chosen eager answer ps x) :
    Chosen eager answer (p :: ps) ((alone answer p).orElse eager x) := by
  cases eager with
  | false =>
      have hsettles : Settles false (alone answer p).outcome = true := by
        simp [alone, hp, Settles, hsuccess]
      rw [orElse_of_settles hsettles, alone, hp]
      exact Chosen.first [] ps rfl (List.forall_mem_nil _) hp hsuccess
  | true =>
      have hopen : ¬ Settles true (alone answer p).outcome = true := by
        simp [alone, hp, Settles]
      rw [orElse_of_open hopen, alone, hp]
      have hkept : ∀ r', (Except.ok r : Outcome Reply) = .ok (r.alternative r') := by
        intro r'
        rw [Reply.alternative_of_isSuccess hsuccess]
      have hfails : ∀ {q}, (∃ e t, answer q = .ok (.failure e t)) → ∃ r', answer q = .ok r' := by
        rintro q ⟨e, t, hq⟩
        exact ⟨.failure e t, hq⟩
      -- the others matter only in that they may stop the choice
      cases h with
      | stopped before after hbefore hstop =>
          have hbefore' := List.forall_mem_cons.mpr ⟨⟨r, hp, fun _ => rfl⟩, hbefore⟩
          exact Chosen.stopped (p :: before) after hbefore' hstop
      | first before after heager => cases heager
      | @firstOfAll before after q r' heager hbefore hq hsuccess' hafter =>
          have hall : ∀ q' ∈ before ++ q :: after, ∃ r', answer q' = .ok r' := by
            intro q' hq'
            rcases List.mem_append.mp hq' with hq' | hq'
            · exact hfails (hbefore q' hq')
            · exact List.forall_mem_cons.mpr ⟨⟨r', hq⟩, hafter⟩ q' hq'
          have hchosen :=
            Chosen.firstOfAll [] _ rfl (List.forall_mem_nil _) hp hsuccess hall
          rwa [hkept r'] at hchosen
      | @failed q after e t hq hafter =>
          have hall : ∀ q' ∈ q :: after, ∃ r', answer q' = .ok r' := by
            intro q' hq'
            rcases List.mem_cons.mp hq' with rfl | hq'
            · exact ⟨.failure e t, hq⟩
            · exact hfails (hafter q' hq')
          have hchosen :=
            Chosen.firstOfAll [] _ rfl (List.forall_mem_nil _) hp hsuccess hall
          rwa [hkept (.failure e t)] at hchosen

/-- In front of the others, an alternative that fails. -/
theorem chosen_cons_of_failure {p : Parser} {ps : List Parser} {e t : Text}
    (hp : answer p = .ok (.failure e t)) (h : Chosen eager answer ps x) :
    Chosen eager answer (p :: ps) ((alone answer p).orElse eager x) := by
  have hopen : ¬ Settles eager (alone answer p).outcome = true := by
    simp [alone, hp, Settles, Reply.isSuccess]
  have hreplaced : ∀ {r : Reply}, r.isSuccess →
      (Except.ok r : Outcome Reply) = .ok ((Reply.failure e t).alternative r) := by
    intro r hsuccess
    exact congrArg Except.ok (if_pos hsuccess).symm
  rw [orElse_of_open hopen, alone, hp]
  cases h with
  | stopped before after hbefore hstop =>
      have hfails : (Reply.failure e t).isSuccess → eager := fun h => absurd h Bool.false_ne_true
      have hbefore' := List.forall_mem_cons.mpr ⟨⟨.failure e t, hp, hfails⟩, hbefore⟩
      exact Chosen.stopped (p :: before) after hbefore' hstop
  | first before after heager hbefore hq hsuccess =>
      have hbefore' := List.forall_mem_cons.mpr ⟨⟨e, t, hp⟩, hbefore⟩
      have hchosen := Chosen.first (p :: before) after heager hbefore' hq hsuccess
      rwa [hreplaced hsuccess] at hchosen
  | firstOfAll before after heager hbefore hq hsuccess hafter =>
      have hbefore' := List.forall_mem_cons.mpr ⟨⟨e, t, hp⟩, hbefore⟩
      have hchosen :=
        Chosen.firstOfAll (p :: before) after heager hbefore' hq hsuccess hafter
      rwa [hreplaced hsuccess] at hchosen
  | @failed q after e' t' hq hafter =>
      exact Chosen.failed hp (List.forall_mem_cons.mpr ⟨⟨e', t', hq⟩, hafter⟩)

/-- The trial of one or more alternatives is the choice between them. -/
theorem chosen_ofList (eager : Bool) (answer : Parser → Outcome Reply) (p : Parser)
    (ps : List Parser) : Chosen eager answer (p :: ps) (ofList eager answer (p :: ps)) := by
  induction ps generalizing p with
  | nil =>
      have hlast : ofList eager answer [p] = alone answer p := orElse_nothing eager _
      rw [hlast]
      exact chosen_alone p
  | cons q ps ih =>
      change Chosen eager answer (p :: q :: ps)
        ((alone answer p).orElse eager (ofList eager answer (q :: ps)))
      cases hp : answer p with
      | error stop => exact chosen_cons_of_error hp _
      | ok r =>
          rcases r.fails_or_accepts with ⟨e, t, rfl⟩ | ⟨v, rest, haccept⟩
          · exact chosen_cons_of_failure hp (ih q)
          · exact chosen_cons_of_success hp (Reply.isSuccess_of_accepted? haccept) (ih q)

end Trial

namespace Bracketing

/-- The trial of the alternatives in brackets. -/
def trial (eager : Bool) (answer : Parser → Outcome Reply) {ps : List Parser} :
    Bracketing ps → Trial
  | alone p => Trial.alone answer p
  | pair left right => (left.trial eager answer).orElse eager (right.trial eager answer)

/-- In front of any further trial the brackets make no difference.  Of the two sides
of a pair, the left is always in front of something. -/
theorem foldr_eq_orElse_trial (eager : Bool) (answer : Parser → Outcome Reply) {ps : List Parser}
    (T : Bracketing ps) (x : Trial) :
    ps.foldr (fun p y => (Trial.alone answer p).orElse eager y) x =
      (T.trial eager answer).orElse eager x := by
  induction T generalizing x with
  | alone p => rfl
  | pair left right ihleft ihright =>
      rw [List.foldr_append, ihright x, ihleft]
      exact (Trial.orElse_assoc eager _ _ _).symm

theorem trial_eq_ofList (eager : Bool) (answer : Parser → Outcome Reply) {ps : List Parser}
    (T : Bracketing ps) : T.trial eager answer = Trial.ofList eager answer ps := by
  rw [Trial.ofList, T.foldr_eq_orElse_trial eager answer, Trial.orElse_nothing]

end Bracketing

namespace Grammar

variable {g : Grammar} {s : Settings} {limit : Nat} {p q : Parser} {input : Text}

/-- The second side is run if the outcome of the first leaves the choice open. -/
theorem run_orElse :
    g.run s limit (p.orElse q) input =
      let x := g.run s limit p input
      let y := g.run s limit q input
      if Settles s.eagerChoice x.outcome then
        { outcome := x.outcome, events := .entered (p.orElse q) input :: x.events }
      else
        { outcome := x.outcome.bind fun r => y.outcome.map r.alternative
          events := .entered (p.orElse q) input :: (x.events ++ y.events) } := by
  rw [run_orElse_eq]
  cases hp : (g.run s limit p input).outcome with
  | error stop => simp [Bind.bind, Run.emit, hp, Settles]
  | ok r =>
      cases hsettled : r.isSuccess && !s.eagerChoice with
      | true => simp [Bind.bind, Pure.pure, Run.emit, hp, Settles, hsettled]
      | false =>
          simp only [Bind.bind, Pure.pure, Run.emit, hp, Settles, hsettled, Except.bind]
          cases hq : (g.run s limit q input).outcome with
          | error stop => simp [Except.map]
          | ok r' => simp [Except.map]

/-- A run of alternatives in brackets that shows no more than the trial: it has
the outcome, and apart from the brackets, which are entered at most once each,
the events are those of the alternatives tried, one run after another. -/
structure Shows (g : Grammar) (s : Settings) (limit : Nat) (input : Text) {ps : List Parser}
    (T : Bracketing ps) (x : Trial) : Prop where
  outcome : (g.run s limit (T.parser Parser.orElse) input).outcome = x.outcome
  events : ∃ entries : List Event,
    entries.Sublist ((T.groups Parser.orElse).map fun q => .entered q input) ∧
      Woven entries (x.tried.map fun p => (g.run s limit p input).events)
        (g.run s limit (T.parser Parser.orElse) input).events

/-- A pair of brackets is entered once, and then one side or both are run. -/
theorem Shows.pair {ps qs : List Parser} {left : Bracketing ps} {right : Bracketing qs}
    {x y : Trial} (hleft : g.Shows s limit input left x) (hright : g.Shows s limit input right y) :
    g.Shows s limit input (left.pair right) (x.orElse s.eagerChoice y) := by
  obtain ⟨entries, hentries, hwoven⟩ := hleft.events
  obtain ⟨entries', hentries', hwoven'⟩ := hright.events
  let entry : Event := .entered ((left.pair right).parser Parser.orElse) input
  by_cases hx : Settles s.eagerChoice x.outcome
  · -- the right side is not run, so its brackets are not entered either
    have hrun : g.run s limit ((left.pair right).parser Parser.orElse) input =
        ⟨x.outcome, entry :: (g.run s limit (left.parser Parser.orElse) input).events⟩ := by
      rw [Bracketing.parser, run_orElse]
      simp only [hleft.outcome, hx, if_true]
      rfl
    rw [Trial.orElse_of_settles hx]
    constructor
    · rw [hrun]
    · rw [hrun]
      refine ⟨entry :: entries, ?_, hwoven.single entry⟩
      apply List.Sublist.cons_cons
      rw [List.map_append]
      exact hentries.trans (List.sublist_append_left _ _)
  · have hrun : g.run s limit ((left.pair right).parser Parser.orElse) input =
        ⟨x.outcome.bind fun r => y.outcome.map r.alternative,
          entry :: ((g.run s limit (left.parser Parser.orElse) input).events ++
            (g.run s limit (right.parser Parser.orElse) input).events)⟩ := by
      rw [Bracketing.parser, run_orElse]
      simp only [hleft.outcome, hright.outcome, hx, Bool.false_eq_true, if_false]
      rfl
    rw [Trial.orElse_of_open hx]
    constructor
    · rw [hrun]
    · rw [hrun, List.map_append]
      refine ⟨entry :: (entries ++ entries'), ?_, (hwoven.append hwoven').single entry⟩
      apply List.Sublist.cons_cons
      rw [List.map_append]
      exact hentries.append hentries'

/-- The run of alternatives in brackets shows their trial. -/
theorem shows_trial {ps : List Parser} (T : Bracketing ps) :
    g.Shows s limit input T
      (T.trial s.eagerChoice fun p => (g.run s limit p input).outcome) := by
  induction T with
  | alone p => exact ⟨rfl, [], List.Sublist.slnil, Woven.of_block _⟩
  | pair left right ihleft ihright => exact ihleft.pair ihright

/-- **Choice is independent of brackets.**  All ways to put brackets around the
same alternatives, of which `Parser.choice` takes one, have the same outcome and
run the same alternatives, all on the same text and in the same order. -/
theorem choice_ignores_brackets (g : Grammar) (s : Settings) (limit : Nat) (p : Parser)
    (ps : List Parser) (input : Text) :
    (∃ T : Bracketing (p :: ps), Parser.choice (p :: ps) = .ok (T.parser Parser.orElse)) ∧
      ∃ x : Trial,
        Chosen s.eagerChoice (fun q => (g.run s limit q input).outcome) (p :: ps) x ∧
          ∀ T : Bracketing (p :: ps), g.Shows s limit input T x := by
  constructor
  · obtain ⟨T, hT⟩ := Bracketing.exists_parser_eq_foldl Parser.orElse p ps
    refine ⟨T, ?_⟩
    rw [hT]
    rfl
  · refine ⟨_, Trial.chosen_ofList s.eagerChoice _ p ps, fun T => ?_⟩
    rw [← T.trial_eq_ofList]
    exact shows_trial T

end Grammar

end ParserAlgebra
