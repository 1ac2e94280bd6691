import ParserAlgebra.Proofs.Draft.Protocol
import ParserAlgebra.Proofs.Fault.Origin
import ParserAlgebra.Proofs.Fault.Reading
/-!
# Complete grammars

Some faults are about the making and the use of a grammar itself
(`Fault.ofGrammar`): a recursive parser was run before it was tied, one was tied
that must not be, or something was read from a reply that is not there.

A parser is complete if no recursive parser that it reaches is still awaiting its
target.  Its runs have no such fault (`Draft.run_ne_grammarFault`).  The first
kind needs a cell without a definition, and a reachable draft has none but those
that are awaiting theirs.  The second kind comes from calls and not from runs.
For the third kind, the run that reads each reply through the accessors is
compared with the run that goes by cases: they are the same.
-/

namespace ParserAlgebra

/-- The fault is one of the grammar itself: of how it was made, or of how its
replies are read. -/
def Fault.ofGrammar : Fault → Bool
  | undefinedCell => true
  | notRecursive => true
  | alreadyDefined => true
  | outputOfFailure _ => true
  | expectedOfSuccess => true
  | _ => false

namespace Draft

variable {calls : List Call} {p : Parser} {x : Nat} {c : Cell}

/-- Every recursive parser that the parser reaches has been tied. -/
def Complete (d : Draft) (p : Parser) : Prop :=
  ∀ x, d.grammar.Reaches p x → ∃ c, d.cells[x]? = some c ∧ c.status ≠ .awaiting

/-- In a reachable draft, only parsers that are awaiting a target have nothing to
run. -/
theorem exists_definition_of_ne_awaiting
    (hx : (afterAll {} calls).cells[x]? = some c) (hc : c.status ≠ .awaiting) :
    ∃ definition,
      (afterAll {} calls).grammar.cells[x]? = some (some definition) := by
  rw [grammar_cells, hx]
  cases situation_of_cells hx with
  | made h => exact ⟨_, rfl⟩
  | awaiting h hlater => exact absurd rfl hc
  | tied h hbetween => exact ⟨_, rfl⟩

/-- **No grammar fault from a complete grammar.**  After any calls, the runs of a
complete parser, whose functions have no grammar faults of their own, have none
either.  No reading of an output or a label is refused in them. -/
theorem run_ne_grammarFault
    (hcomplete : (afterAll {} calls).Complete p)
    (hfunctions : ∀ cause, (afterAll {} calls).grammar.Raises p cause →
      cause.ofGrammar = false)
    (s : Settings) (limit : Nat) (input : Text) :
    (afterAll {} calls).grammar.runReading s limit p input =
      (afterAll {} calls).run s limit p input ∧
    ∀ cause, cause.ofGrammar = true →
      ((afterAll {} calls).run s limit p input).outcome ≠
        .error (.fault cause) := by
  refine ⟨Grammar.runReading_eq _ s limit p input, fun cause hcause hrun => ?_⟩
  rcases Grammar.fault_origin hrun with rfl | hraises | ⟨-, id, hid, hlacks⟩
  · cases hcause
  · rw [hfunctions cause hraises] at hcause
    cases hcause
  · obtain ⟨c, hc, hstatus⟩ := hcomplete id hid
    obtain ⟨definition, hdefinition⟩ :=
      exists_definition_of_ne_awaiting hc hstatus
    exact hlacks definition hdefinition

/-- The only fault of the functions that sums are made with is that of adding an
item to what is not a list. -/
theorem sumCalls_raises {cause : Fault} (hp : ¬ p.Raises cause)
    (h : (afterAll {} sumCalls).grammar.Raises p cause) : cause = .wrongKind := by
  have hcons : ∀ v w, Value.cons v w = .error cause → cause = .wrongKind := by
    intro v w hvw
    cases w <;> cases hvw <;> rfl
  obtain ⟨id, definition, -, hcell, hraises⟩ := h.resolve_left hp
  match id, hcell with
  | 0, hcell =>
      cases hcell
      exact hraises.elim
  | 1, hcell =>
      cases hcell
      exact hraises.elim
  | 2, hcell =>
      cases hcell
      rcases hraises with hterm | ⟨v, (hsign | ⟨_, hterm⟩) | ⟨w, hvw⟩⟩
      · exact hterm.elim
      · exact hsign.elim
      · exact hterm.elim
      · exact hcons v w hvw
  | 3, hcell =>
      cases hcell
      rcases hraises with ((hopen | ⟨_, hsum⟩) | hclose) | hinteger
      · exact hopen.elim
      · exact hsum.elim
      · exact hclose.elim
      · exact hinteger.elim
  | _ + 4, hcell => cases hcell

/-- Sums refer to the tree of a sum, that of a term, and to each other. -/
theorem sumCalls_refers {id y : Nat} {definition : Parser}
    (hcell : (afterAll {} sumCalls).grammar.cells[id]? = some (some definition))
    (h : definition.Refers y) : y < 4 := by
  match id, hcell with
  | 0, hcell =>
      cases hcell
      cases h
      decide
  | 1, hcell =>
      cases hcell
      cases h
      decide
  | 2, hcell =>
      cases hcell
      rcases h with hterm | ⟨v, hsign | ⟨_, hterm⟩⟩
      · cases hterm
        decide
      · exact hsign.elim
      · cases hterm
        decide
  | 3, hcell =>
      cases hcell
      rcases h with ((hopen | ⟨_, hsum⟩) | hclose) | hinteger
      · exact hopen.elim
      · cases hsum
        decide
      · exact hclose.elim
      · exact hinteger.elim
  | _ + 4, hcell => cases hcell

theorem sumCalls_complete (hp : ∀ y, p.Refers y → y < 4) :
    (afterAll {} sumCalls).Complete p := by
  intro x hx
  have hlt : x < 4 := by
    cases hx with
    | here h => exact hp x h
    | through _ hcell hrefers => exact sumCalls_refers hcell hrefers
  match x, hlt with
  | 0, _ => exact ⟨_, rfl, by decide⟩
  | 1, _ => exact ⟨_, rfl, by decide⟩
  | 2, _ => exact ⟨_, rfl, by decide⟩
  | 3, _ => exact ⟨_, rfl, by decide⟩

/-- A labelled sum fails where its only parenthesis is not closed.  With debugging
on, the label of the failure inside is read for the log. -/
theorem sumCalls_ne_grammarFault :
    ((afterAll {} sumCalls).run { debug := true } 8
      ((Parser.cell 0).label "sum") "(7").outcome = .ok (.failure "sum" "(7") ∧
    (afterAll {} sumCalls).grammar.runReading { debug := true } 8
        ((Parser.cell 0).label "sum") "(7" =
      (afterAll {} sumCalls).run { debug := true } 8
        ((Parser.cell 0).label "sum") "(7" ∧
    ∀ input cause, cause.ofGrammar = true →
      ((afterAll {} sumCalls).run { debug := true } 8
        ((Parser.cell 0).label "sum") input).outcome ≠ .error (.fault cause) := by
  have hcomplete :
      (afterAll {} sumCalls).Complete ((Parser.cell 0).label "sum") := by
    refine sumCalls_complete fun y hy => ?_
    cases hy
    decide
  have hfunctions : ∀ cause,
      (afterAll {} sumCalls).grammar.Raises ((Parser.cell 0).label "sum") cause →
        cause.ofGrammar = false := by
    intro cause hraises
    rw [sumCalls_raises id hraises]
    rfl
  refine ⟨rfl, ?_, fun input => ?_⟩
  · exact (run_ne_grammarFault hcomplete hfunctions _ 8 "(7").1
  · exact (run_ne_grammarFault hcomplete hfunctions _ 8 input).2

end Draft

end ParserAlgebra
