import ParserAlgebra.Parser.Sequence
import ParserAlgebra.Proofs.Diagnostics
import ParserAlgebra.Proofs.Sequence.Row
import ParserAlgebra.Proofs.Run.Outcome
/-!
# Brackets around a sequence

A sequence of several parsers is made of sequences of two, and each pair of
brackets has a label of its own.  An inner pair reports its failure where it
began itself, and only the outermost label takes this back.  So parsers in
brackets agree with their row but for what is said about a failure, and with one
label around them they are the same, however the brackets are put
(`sequence_ignores_brackets`).

That the labels inside do not matter is carried by `Reply.Agree`, by induction on
the brackets: it says enough to know whether the second half of a pair is run and
on which text, and the label of the pair makes it an equality.
-/

namespace ParserAlgebra

/-- The reply of a sequence: a failure is one of the sequence as a whole. -/
def Reply.ofSequence (input : Text) (r : Reply) : Reply :=
  if r.isSuccess then r else .failure Parser.sequenceLabel input

section Agree

variable {o o' : Outcome Reply} {r r' : Reply}

theorem Reply.agree_ofSequence (h : Reply.Agree r r') (input : Text) :
    Reply.Agree (r.ofSequence input) r' := by
  cases h with
  | same r =>
      cases r with
      | success v rest => exact .same _
      | discarded rest => exact .same _
      | failure e t => exact .failures _ _ e t
  | failures e t e' t' => exact .failures _ _ e' t'

theorem Reply.Agree.ofSequence_eq (h : Reply.Agree r r') (input : Text) :
    r.ofSequence input = r'.ofSequence input := by
  cases h with
  | same r => rfl
  | failures e t e' t' => rfl

namespace Outcome.Related

/-- The label of a pair does not show if labels are not looked at. -/
theorem map_ofSequence (h : Outcome.Related Reply.Agree o o') (input : Text) :
    Outcome.Related Reply.Agree (o.map (Reply.ofSequence input)) o' := by
  cases h with
  | ok hr => exact .ok (Reply.agree_ofSequence hr input)
  | error stop => exact .error stop

/-- Under one label nothing is left of a difference in labels. -/
theorem map_ofSequence_eq (h : Outcome.Related Reply.Agree o o') (input : Text) :
    o.map (Reply.ofSequence input) = o'.map (Reply.ofSequence input) := by
  cases h with
  | ok hr => exact congrArg Except.ok (hr.ofSequence_eq input)
  | error stop => rfl

theorem left?_eq (h : Outcome.Related Reply.Agree o o') : o.left? = o'.left? := by
  cases h with
  | ok hr => exact congrArg (Option.map Prod.snd) (Reply.agree_simulation.accepted?_eq hr)
  | error stop => rfl

end Outcome.Related

end Agree

namespace Grammar

variable {g : Grammar} {s : Settings} {limit : Nat} {p q : Parser} {input rest : Text}
variable {own : Event → Prop} {blocks blocks' : List (List Event)}
variable {legs : List Leg} {o : Outcome Reply}

theorem outcome_run_andThen :
    (g.run s limit (p.andThen q) input).outcome =
      (g.run s limit (p.keepSecond q) input).outcome.map (Reply.ofSequence input) :=
  outcome_run_label Parser.sequenceLabel

/-- A label leaves records, but runs nothing besides its parser. -/
theorem weaves_label {text : Text} (hentry : own (.entered (p.label text) input))
    (hlogged : ∀ r, own (.logged r)) (hp : (g.run s limit p input).Weaves own blocks) :
    (g.run s limit (p.label text) input).Weaves own blocks := by
  have hrecord : ∀ r, (Parser.record s r).Weaves own [] := by
    intro r
    apply Run.weaves_of_own
    intro e he
    unfold Parser.record at he
    split at he
    · rw [List.mem_singleton.mp he]
      exact hlogged r
    · cases he
  apply Run.weaves_emit_bind hentry
  apply (hrecord (.trying text)).bind_of_ok (Parser.record_outcome _)
  apply hp.bind_own
  intro r _
  cases r with
  | success v rest => exact Run.weaves_of_own (List.forall_mem_nil _)
  | discarded rest => exact Run.weaves_of_own (List.forall_mem_nil _)
  | failure e t =>
      apply (hrecord _).bind_own
      intro _ _
      exact Run.weaves_of_own (List.forall_mem_nil _)

theorem weaves_keepSecond_of_next (hentry : own (.entered (p.keepSecond q) input))
    (hnext : (g.run s limit p input).outcome.left? = some rest)
    (hp : (g.run s limit p input).Weaves own blocks)
    (hq : (g.run s limit q rest).Weaves own blocks') :
    (g.run s limit (p.keepSecond q) input).Weaves own (blocks ++ blocks') := by
  obtain ⟨r, v, hr, haccept⟩ := Outcome.left?_eq_some_iff.mp hnext
  apply Run.weaves_emit_bind hentry
  apply hp.bind_of_ok hr
  rw [Reply.onSuccess_of_accepted? haccept]
  exact hq

/-- The run of a parser agrees with a row: the outcomes differ at most in what is
said about a failure, and the runs are the same. -/
structure AgreesWithRow (g : Grammar) (s : Settings) (limit : Nat) (own : Event → Prop)
    (p : Parser) (input : Text) (legs : List Leg) (o : Outcome Reply) : Prop where
  related : Outcome.Related Reply.Agree (g.run s limit p input).outcome o
  events : (g.run s limit p input).Weaves own
    (legs.map (g.legEvents s limit))

/-- Two parsers one after the other agree with a row if each agrees with its part
of it. -/
theorem agreesWithRow_keepSecond {ps qs : List Parser} (hps : ps ≠ []) (hqs : qs ≠ [])
    (hp : ∀ {input legs o}, InRow (g.answer s limit) ps input legs o →
      g.AgreesWithRow s limit own p input legs o)
    (hq : ∀ {input legs o}, InRow (g.answer s limit) qs input legs o →
      g.AgreesWithRow s limit own q input legs o)
    (hentry : own (.entered (p.keepSecond q) input))
    (hrow : InRow (g.answer s limit) (ps ++ qs) input legs o) :
    g.AgreesWithRow s limit own (p.keepSecond q) input legs o := by
  rcases hrow.split hps hqs with ⟨hfirst, hcut⟩ |
    ⟨before, after, o', rest, hfirst, hleft, hsecond, rfl⟩
  · obtain ⟨hrelated, hevents⟩ := hp hfirst
    have hleft? := hrelated.left?_eq.trans hcut
    constructor
    · have hcutShort : (g.run s limit (p.keepSecond q) input).outcome =
          (g.run s limit p input).outcome := Run.outcome_bind_of_cut hleft? fun _ _ => rfl
      rwa [hcutShort]
    · apply Run.weaves_emit_bind hentry
      exact hevents.bind_of_cut hleft? fun _ _ => rfl
  · obtain ⟨hrelated, hevents⟩ := hp hfirst
    obtain ⟨hrelated', hevents'⟩ := hq hsecond
    have hleft? := hrelated.left?_eq.trans hleft
    constructor
    · obtain ⟨r, v, hr, haccept⟩ := Outcome.left?_eq_some_iff.mp hleft?
      rw [Parser.keepSecond, outcome_run_bind, hr, Except.bind,
        Reply.onSuccess_of_accepted? haccept]
      exact hrelated'
    · rw [List.map_append]
      exact weaves_keepSecond_of_next hentry hleft? hevents hevents'

/-- A pair of brackets around two parsers that agree with their parts of a row.  The
label is left out: it stands around what is described here. -/
theorem agreesWithRow_pair {ps qs : List Parser} {left : Bracketing ps} {right : Bracketing qs}
    (hleft : ∀ {input legs o}, InRow (g.answer s limit) ps input legs o →
      g.AgreesWithRow s limit (OfBrackets (left.groups Parser.andThen))
        (left.parser Parser.andThen) input legs o)
    (hright : ∀ {input legs o}, InRow (g.answer s limit) qs input legs o →
      g.AgreesWithRow s limit (OfBrackets (right.groups Parser.andThen))
        (right.parser Parser.andThen) input legs o)
    (hrow : InRow (g.answer s limit) (ps ++ qs) input legs o) :
    g.AgreesWithRow s limit (OfBrackets ((left.pair right).groups Parser.andThen))
      ((left.parser Parser.andThen).keepSecond (right.parser Parser.andThen)) input legs o := by
  apply agreesWithRow_keepSecond left.ne_nil right.ne_nil _ _ _ hrow
  · intro input legs o h
    obtain ⟨hrelated, hevents⟩ := hleft h
    exact ⟨hrelated, hevents.mono fun _ he => he.pair_left right⟩
  · intro input legs o h
    obtain ⟨hrelated, hevents⟩ := hright h
    exact ⟨hrelated, hevents.mono fun _ he => he.pair_right left⟩
  · exact OfBrackets.labelled List.mem_cons_self input

theorem follows_pair {ps qs : List Parser} {left : Bracketing ps} {right : Bracketing qs}
    (h : g.AgreesWithRow s limit (OfBrackets ((left.pair right).groups Parser.andThen))
      ((left.parser Parser.andThen).keepSecond (right.parser Parser.andThen)) input legs o) :
    g.Follows s limit Parser.andThen (left.pair right) input legs
      (o.map (Reply.ofSequence input)) := by
  constructor
  · exact outcome_run_andThen.trans (h.related.map_ofSequence_eq input)
  · exact weaves_label (.entered List.mem_cons_self input) .logged h.events

/-- Parsers in brackets agree with their row. -/
theorem agreesWithRow_bracketing {ps : List Parser} (T : Bracketing ps)
    (hrow : InRow (g.answer s limit) ps input legs o) :
    g.AgreesWithRow s limit (OfBrackets (T.groups Parser.andThen)) (T.parser Parser.andThen)
      input legs o := by
  induction T generalizing input legs o with
  | alone p =>
      obtain ⟨rfl, rfl⟩ := hrow.eq_of_singleton
      exact ⟨Outcome.related_refl Reply.Agree.same _, Run.weaves_events _ _⟩
  | pair left right ihleft ihright =>
      obtain ⟨houtcome, hevents⟩ := follows_pair (agreesWithRow_pair ihleft ihright hrow)
      refine ⟨?_, hevents⟩
      rw [houtcome]
      exact (Outcome.related_refl Reply.Agree.same o).map_ofSequence input

/-- Around two or more parsers there is a pair of brackets, whose label makes the
failure one of the sequence. -/
theorem follows_sequence {ps : List Parser} (T : Bracketing ps) (hlength : 2 ≤ ps.length)
    (hrow : InRow (g.answer s limit) ps input legs o) :
    g.Follows s limit Parser.andThen T input legs (o.map (Reply.ofSequence input)) := by
  cases T with
  | alone p => simp at hlength
  | pair left right =>
      apply follows_pair
      exact agreesWithRow_pair (agreesWithRow_bracketing left) (agreesWithRow_bracketing right) hrow

/-- **Sequencing is independent of brackets.**  All ways to put brackets around the
same two or more parsers, of which `Parser.sequence` takes one, have the same
outcome and run the same parsers on the same texts in the same order: those of the
row.  The outcome is that of the last parser that is run, except that a failure is
one of the sequence and is reported where the sequence began. -/
theorem sequence_ignores_brackets (g : Grammar) (s : Settings) (limit : Nat) (p q : Parser)
    (ps : List Parser) (input : Text) :
    (∃ T : Bracketing (p :: q :: ps),
      Parser.sequence (p :: q :: ps) = .ok (T.parser Parser.andThen)) ∧
    ∃ (legs : List Leg) (o : Outcome Reply),
      InRow (g.answer s limit) (p :: q :: ps) input legs o ∧
      ∀ T : Bracketing (p :: q :: ps),
        g.Follows s limit Parser.andThen T input legs (o.map (Reply.ofSequence input)) := by
  constructor
  · obtain ⟨T, hT⟩ := Bracketing.exists_parser_eq_foldl Parser.andThen p (q :: ps)
    refine ⟨T, ?_⟩
    rw [hT]
    rfl
  · obtain ⟨legs, o, hrow⟩ := InRow.exists_cons (g.answer s limit) p (q :: ps) input
    have hlength : 2 ≤ (p :: q :: ps).length := Nat.le_add_left 2 ps.length
    exact ⟨legs, o, hrow, fun T => follows_sequence T hlength hrow⟩

end Grammar

end ParserAlgebra
