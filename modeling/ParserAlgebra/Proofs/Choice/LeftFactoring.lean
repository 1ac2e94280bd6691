import Mathlib.Data.List.Induction
import ParserAlgebra.Parser.Choice
import ParserAlgebra.Parser.Sequence
import ParserAlgebra.Proofs.Run.Outcome
/-!
# Left factoring

Alternatives that begin with the same parser may share it: this parser and then a
choice has the same outcome as a choice between alternatives that each begin with
it (`choice_leftFactored`).  It is run once on the one side and once for each
alternative that is tried on the other, always on the same text, so it does the
same each time; and what stops the choice on the one side stops it on the other.

Two facts are behind this, each about a choice between two.  To go on after a
parser distributes over choice (`outcome_keepSecond_orElse`), and so does a label,
since of two failures with the same label either may be taken
(`outcome_label_orElse`).  From two alternatives to many it is an induction from the
last alternative, because choice between many nests to the left.
-/

namespace ParserAlgebra

namespace Grammar

variable {g : Grammar} {s : Settings} {limit : Nat} {p p' q a : Parser} {input : Text}

/-- Only the outcome of the left side bears on that of a choice. -/
theorem outcome_orElse_congr
    (h : (g.run s limit p input).outcome = (g.run s limit p' input).outcome) :
    (g.run s limit (p.orElse q) input).outcome =
      (g.run s limit (p'.orElse q) input).outcome := by
  rw [outcome_run_orElse, outcome_run_orElse, h]

/-- What a parser distributes over a choice of two, it distributes over a choice of
many. -/
theorem outcome_foldl_orElse (f : Parser → Parser)
    (hf : ∀ p q, (g.run s limit ((f p).orElse (f q)) input).outcome =
      (g.run s limit (f (p.orElse q)) input).outcome)
    (p : Parser) (ps : List Parser) :
    (g.run s limit ((ps.map f).foldl Parser.orElse (f p)) input).outcome =
      (g.run s limit (f (ps.foldl Parser.orElse p)) input).outcome := by
  induction ps using List.reverseRecOn with
  | nil => rfl
  | append_singleton ps q ih =>
      simp only [List.map_append, List.map_cons, List.map_nil, List.foldl_append,
        List.foldl_cons, List.foldl_nil]
      exact (outcome_orElse_congr ih).trans (hf _ q)

/-- To go on after a parser distributes over choice. -/
theorem outcome_keepSecond_orElse :
    (g.run s limit ((a.keepSecond p).orElse (a.keepSecond q)) input).outcome =
      (g.run s limit (a.keepSecond (p.orElse q)) input).outcome := by
  rw [outcome_run_orElse]
  simp only [Parser.keepSecond, outcome_run_bind]
  cases (g.run s limit a input).outcome with
  | error stop => rfl
  | ok r =>
      rcases r.fails_or_accepts with ⟨e, t, rfl⟩ | ⟨v, rest, haccept⟩
      · -- of two equal failures the first is taken
        rfl
      · simp only [Except.bind, Reply.onSuccess_of_accepted? haccept]
        exact outcome_run_orElse.symm

/-- The same label on both sides of a choice may be put around it. -/
theorem outcome_label_orElse (text : Text) :
    (g.run s limit ((p.label text).orElse (q.label text)) input).outcome =
      (g.run s limit ((p.orElse q).label text) input).outcome := by
  rw [outcome_run_orElse, outcome_run_label, outcome_run_label, outcome_run_label,
    outcome_run_orElse]
  cases (g.run s limit p input).outcome with
  | error stop => rfl
  | ok r =>
      rcases r.fails_or_accepts with ⟨e, t, rfl⟩ | ⟨v, rest, haccept⟩
      · cases (g.run s limit q input).outcome with
        | error stop => rfl
        | ok r' => cases r' <;> rfl
      · have hsuccess := Reply.isSuccess_of_accepted? haccept
        simp only [Except.map, Except.bind, if_pos hsuccess]
        cases s.eagerChoice with
        | false => simp only [hsuccess, Bool.not_false, Bool.and_self, if_true]
        | true =>
            simp only [Bool.not_true, Bool.and_false, Bool.false_eq_true, if_false]
            cases (g.run s limit q input).outcome with
            | error stop => rfl
            | ok r' => simp only [Reply.alternative_of_isSuccess hsuccess, if_pos hsuccess]

theorem outcome_andThen_orElse :
    (g.run s limit ((a.andThen p).orElse (a.andThen q)) input).outcome =
      (g.run s limit (a.andThen (p.orElse q)) input).outcome := by
  simp only [Parser.andThen]
  rw [outcome_label_orElse, outcome_run_label, outcome_run_label, outcome_keepSecond_orElse]

/-- **Left factoring.**  Alternatives that begin with the same parser have the same
outcome as this parser and after it a choice, at every limit on nesting, whether
failures are relabelled or not. -/
theorem choice_leftFactored (g : Grammar) (s : Settings) (a p : Parser) (ps : List Parser) :
    ∃ alternatives labelled plain : Parser,
      Parser.choice (p :: ps) = .ok alternatives ∧
      Parser.choice ((p :: ps).map a.andThen) = .ok labelled ∧
      Parser.choice ((p :: ps).map a.keepSecond) = .ok plain ∧
      ∀ (limit : Nat) (input : Text),
        (g.run s limit labelled input).outcome =
          (g.run s limit (a.andThen alternatives) input).outcome ∧
        (g.run s limit plain input).outcome =
          (g.run s limit (a.keepSecond alternatives) input).outcome := by
  refine ⟨_, _, _, rfl, rfl, rfl, fun limit input => ⟨?_, ?_⟩⟩
  · exact outcome_foldl_orElse a.andThen (fun _ _ => outcome_andThen_orElse) p ps
  · exact outcome_foldl_orElse a.keepSecond (fun _ _ => outcome_keepSecond_orElse) p ps

end Grammar

end ParserAlgebra
