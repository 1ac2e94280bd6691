import ParserAlgebra.Proofs.Draft.AsGrammar
import ParserAlgebra.Proofs.Run.Congruence
/-!
# What further calls leave as it was

Parsers share what they refer to, and a call that ties one of them changes what
others do.  There are two bounds on this.

* A run that did not meet a parser that is still awaiting its target stays the
  same for good: `Grammar.run_eq_of_extends`.  Calls only give definitions to
  cells without one (`grammar_extends`), and such a run has asked for none of
  these.
* A parser that does not reach the tied one is not affected at all:
  `Grammar.run_eq_of_reached`.  All that it reaches is as before.

`run_stable` has both, for the drafts that calls can make.
-/

namespace ParserAlgebra

namespace Grammar

variable {g h : Grammar} {s : Settings} {limit : Nat} {p : Parser} {input : Text}

/-- The first grammar has all definitions of the second, and may have more. -/
def Extends (h g : Grammar) : Prop :=
  ∀ (id : Nat) (definition : Parser), g.cells[id]? = some (some definition) →
    h.cells[id]? = some (some definition)

/-- **Extension.**  Further definitions leave a run as it is, unless it stopped
because one was missing. -/
theorem run_eq_of_extends
    (hext : h.Extends g)
    (hdefined : (g.run s limit p input).outcome ≠
      .error (.fault .undefinedCell)) :
    h.run s limit p input = g.run s limit p input := by
  have hR := Run.eqUnless_congruence (.fault .undefinedCell)
  have hcells : Comparable (Run.EqUnless (.fault .undefinedCell)) s s g h
      fun _ => True := by
    intro id _
    -- where the definition is missing, the first run stops, whatever the second does
    match hid : g.cells[id]? with
    | some (some definition) =>
        exact .inl ⟨definition, rfl, hext id definition hid, fun _ _ => trivial⟩
    | some none =>
        refine .inr fun limit limit' input hne => ?_
        rw [enter, hid] at hne
        exact absurd rfl hne
    | none =>
        refine .inr fun limit limit' input hne => ?_
        rw [enter, hid] at hne
        exact absurd rfl hne
  exact run_congr_of_comparable hR hcells limit (fun _ _ => trivial) input
    hdefined

/-- **Frame.**  A run depends on the cells that the parser reaches and on no
others. -/
theorem run_eq_of_reached
    (hsame : ∀ id, g.Reaches p id → h.cells[id]? = g.cells[id]?) :
    h.run s limit p input = g.run s limit p input := by
  have hR : Run.Congruence fun ⦃α : Type⦄ (x y : Run α) => y = x :=
    ⟨fun _ => rfl, fun hxy hfg => by rw [hxy, funext hfg]⟩
  have hcells : Comparable (fun ⦃α : Type⦄ (x y : Run α) => y = x) s s g h
      (g.Reaches p) :=
    comparable_of_cells_eq hR hsame fun hid hg _ => .through hid hg
  exact run_congr_of_comparable hR hcells limit (fun _ => .here) input

end Grammar

namespace Draft

variable {calls later : List Call} {x : Nat} {p : Parser}

/-- Whatever is called, definitions are added and none is replaced. -/
theorem grammar_extends (calls later : List Call) :
    (afterAll {} (calls ++ later)).grammar.Extends
      (afterAll {} calls).grammar := by
  intro id definition hid
  rw [grammar_cells] at hid ⊢
  obtain ⟨c, hc, haction⟩ := Option.map_eq_some_iff.mp hid
  have hstatus : c.status ≠ .awaiting :=
    (situation_of_cells hc).status_ne_awaiting (by simp [haction])
  rw [afterAll_append, cells_afterAll hc later,
    Cell.foldl_after_of_ne_awaiting hstatus, Option.map_some, haction]

/-- **Stability.**  A run that does not stop at a parser that is awaiting its
target is the same after any further calls.  A call that ties a parser leaves
every run of a parser that does not reach it as it was. -/
theorem run_stable (calls : List Call) (s : Settings) (limit : Nat) (p : Parser)
    (input : Text) :
    (((afterAll {} calls).run s limit p input).outcome ≠
        .error (.fault .undefinedCell) →
      ∀ later, (afterAll {} (calls ++ later)).run s limit p input =
        (afterAll {} calls).run s limit p input) ∧
    ∀ x, ¬ (afterAll {} calls).grammar.Reaches p x →
      ∀ target, ((afterAll {} calls).tie x target).1.run s limit p input =
        (afterAll {} calls).run s limit p input := by
  constructor
  · intro hdefined later
    exact Grammar.run_eq_of_extends (grammar_extends calls later) hdefined
  · intro x hx target
    refine Grammar.run_eq_of_reached fun id hid => ?_
    have hne : id ≠ x := by
      rintro rfl
      exact hx hid
    exact grammar_cells_tie_of_ne _ hne target

/-- While sums are tied and terms are not, the tree of a term reads a number and
goes on to do so, but stops at a parenthesis.  Before sums were tied, it did not
reach terms, and tying these made no difference to it. -/
theorem sumCalls_stable :
    (∀ later,
      ((afterAll {} (sumCalls.dropLast ++ later)).run {} 4 (.cell 3) "7").outcome =
        .ok (.success (.int 7) [])) ∧
    ((afterAll {} sumCalls.dropLast).run {} 4 (.cell 3) "(7)").outcome =
      .error (.fault .undefinedCell) ∧
    ∀ s limit input,
      ((afterAll {} (sumCalls.take 4)).tie 1 3).1.run s limit (.cell 3) input =
        (afterAll {} (sumCalls.take 4)).run s limit (.cell 3) input := by
  have hnumber :
      ((afterAll {} sumCalls.dropLast).run {} 4 (.cell 3) "7").outcome =
        .ok (.success (.int 7) []) := rfl
  have hterm : ∀ id, (afterAll {} (sumCalls.take 4)).grammar.Reaches (.cell 3) id →
      id = 3 ∨ id = 0 := by
    intro id hid
    induction hid with
    | here h => exact .inl h.symm
    | through h hcell hrefers ih =>
        rcases ih with rfl | rfl
        · cases hcell
          refine .inr ?_
          simpa [Parser.between, Parser.keepSecond, Parser.char, Parser.satisfy,
            Parser.integer, Parser.Refers, eq_comm] using hrefers
        · cases hcell
  refine ⟨fun later => ?_, rfl, fun s limit input => ?_⟩
  · rw [(run_stable _ _ _ _ _).1 (by simp [hnumber]) later, hnumber]
  · refine (run_stable _ s limit _ input).2 1 (fun hreach => ?_) 3
    rcases hterm 1 hreach with h | h <;> cases h

end Draft

end ParserAlgebra
