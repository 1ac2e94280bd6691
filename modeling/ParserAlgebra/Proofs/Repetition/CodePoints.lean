import ParserAlgebra.Proofs.Repetition.Fixed
/-!
# Repetition of a code point

A parser of one code point takes just this off the text.  So the chain of its successes
goes through the code points for which its predicate holds, up to the first one for
which it does not (`exists_maximalChain_satisfy`).  It calls no cell, so all this is the
same at every limit on nesting.

* `outcome_run_many_satisfy`: its repetition gives these code points, each as a text.
* `outcome_run_atLeastOne_satisfy`: so does its repetition at least once, or else it
  fails as the parser itself does.
-/

namespace ParserAlgebra.Grammar

variable {g : Grammar} {s : Settings} {limit : Nat} {f : CodePoint → Bool}
variable {label rest t : Text} {c : CodePoint}

theorem outcome_run_satisfy_cons (hc : f c = true) (rest : Text) :
    (g.run s limit (.satisfy f label) (c :: rest)).outcome = .ok (.success (.text [c]) rest) :=
  congrArg Except.ok (if_pos hc)

theorem outcome_run_satisfy_of_takeWhile_eq_nil (h : t.takeWhile f = []) :
    (g.run s limit (.satisfy f label) t).outcome = .ok (.failure label t) := by
  cases t with
  | nil => rfl
  | cons c rest =>
      have hc : ¬ f c = true := by
        intro hc
        rw [List.takeWhile_cons_of_pos hc] at h
        cases h
      exact congrArg Except.ok (if_neg hc)

theorem concludes_char (c : CodePoint) (rest : Text) :
    g.Concludes s (.char c) (c :: rest) (.ok (.success (.text [c]) rest)) :=
  ⟨0, fun _ _ => outcome_run_satisfy_cons (f := (· == c)) (beq_self_eq_true c) rest⟩

theorem concludes_char_of_head?_ne (h : t.head? ≠ some c) :
    g.Concludes s (.char c) t (.ok (.failure (Text.call "char" [c]) t)) := by
  refine ⟨0, fun _ _ => outcome_run_satisfy_of_takeWhile_eq_nil ?_⟩
  cases t with
  | nil => rfl
  | cons d rest =>
      have hd : d ≠ c := fun heq => h (congrArg some heq)
      exact List.takeWhile_cons_of_neg (by simpa using hd)

/-- One code point after the other, while the predicate holds. -/
theorem exists_maximalChain_satisfy (g : Grammar) (s : Settings) (limit : Nat)
    (f : CodePoint → Bool) (label t : Text) :
    ∃ links,
      MaximalChain (fun t r => (g.run s limit (.satisfy f label) t).outcome = .ok r) t links ∧
      links.map Prod.fst = (t.takeWhile f).map (fun c => .text [c]) ∧
      lastRest t links = t.dropWhile f := by
  have hstop : ∀ t : Text, t.takeWhile f = [] →
      MaximalChain (fun t r => (g.run s limit (.satisfy f label) t).outcome = .ok r) t [] := by
    intro t h
    refine .done (outcome_run_satisfy_of_takeWhile_eq_nil h) ?_
    intro v rest haccept
    cases haccept
  induction t with
  | nil => exact ⟨[], hstop [] rfl, rfl, rfl⟩
  | cons c t ih =>
      by_cases hc : f c = true
      · obtain ⟨links, hlinks, houtputs, hlast⟩ := ih
        refine ⟨(.text [c], t) :: links, ?_, ?_, ?_⟩
        · exact .more (outcome_run_satisfy_cons hc t) rfl (Nat.lt_succ_self _) hlinks
        · rw [List.map_cons, houtputs, List.takeWhile_cons_of_pos hc, List.map_cons]
        · rw [lastRest, hlast, List.dropWhile_cons_of_pos hc]
      · have htake := List.takeWhile_cons_of_neg (l := t) hc
        refine ⟨[], hstop _ htake, ?_, ?_⟩
        · rw [htake]
          rfl
        · rw [List.dropWhile_cons_of_neg hc, lastRest]

theorem outcome_run_many_satisfy (t : Text) :
    (g.run s limit (Parser.satisfy f label).many t).outcome =
      .ok (.success (.list ((t.takeWhile f).map fun c => .text [c])) (t.dropWhile f)) := by
  obtain ⟨links, hlinks, houtputs, hlast⟩ := exists_maximalChain_satisfy g s limit f label t
  rw [outcome_run_many, (chain_of_maximalChain hlinks (Nat.le_refl _)).1, houtputs, hlast]
  rfl

theorem outcome_run_atLeastOne_satisfy (t : Text) :
    (g.run s limit (Parser.satisfy f label).atLeastOne t).outcome =
      .ok (if t.takeWhile f = [] then .failure label t
        else .success (.list ((t.takeWhile f).map fun c => .text [c])) (t.dropWhile f)) := by
  rw [Parser.atLeastOne, Parser.prepend, outcome_run_bind]
  cases t with
  | nil => rfl
  | cons c rest =>
      by_cases hc : f c = true
      · rw [outcome_run_satisfy_cons hc, List.takeWhile_cons_of_pos hc,
          List.dropWhile_cons_of_pos hc, if_neg (List.cons_ne_nil _ _)]
        simp only [Except.bind, Reply.onSuccess, outcome_run_map, outcome_run_many_satisfy]
        rfl
      · have hnone := List.takeWhile_cons_of_neg (l := rest) hc
        rw [outcome_run_satisfy_of_takeWhile_eq_nil hnone, if_pos hnone]
        rfl

theorem concludes_atLeastOne_satisfy (h : t.takeWhile f ≠ []) :
    g.Concludes s (Parser.satisfy f label).atLeastOne t
      (.ok (.success (.list ((t.takeWhile f).map fun c => .text [c])) (t.dropWhile f))) :=
  ⟨0, fun _ _ => by rw [outcome_run_atLeastOne_satisfy, if_neg h]⟩

theorem concludes_atLeastOne_satisfy_of_nil (h : t.takeWhile f = []) :
    g.Concludes s (Parser.satisfy f label).atLeastOne t (.ok (.failure label t)) :=
  ⟨0, fun _ _ => by rw [outcome_run_atLeastOne_satisfy, if_pos h]⟩

end ParserAlgebra.Grammar
