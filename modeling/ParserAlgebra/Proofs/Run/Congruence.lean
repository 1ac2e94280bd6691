import ParserAlgebra.Proofs.Reach
import ParserAlgebra.Proofs.Run.Rules
/-!
# Runs of the same parser, compared

A parser may be run under two settings, with two limits on the nesting of cells,
or in two grammars.  If the two runs of each leaf, each record and each choice
are related by a congruence, then so are the two runs of every parser:
`eval_congr` by induction on the parser, and `run_congr_of_cells` from it by
induction on the limit.  A comparison then only has to say what happens where
the two sides really differ.  `run_congr` is the case of one grammar.

Only the cells that the parser leads to have to be compared.  The second run may
be given `extra` more nesting than the first.
-/

namespace ParserAlgebra

variable {R : ∀ ⦃α : Type⦄, Run α → Run α → Prop} {s t : Settings}

/-- Repetitions of related steps are related, with any bound on the
iterations. -/
theorem chain_congr (hR : Run.Congruence R) {step step' : Text → Run Reply}
    (h : ∀ input, R (step input) (step' input)) (bound : Nat) (input : Text) :
    R (chain step bound input) (chain step' bound input) := by
  induction bound generalizing input with
  | zero => exact hR.bind (h input) fun _ => hR.refl _
  | succ bound ih =>
      simp only [chain]
      refine hR.bind (h input) fun r => ?_
      split
      · split
        · exact hR.bind (ih _) fun _ => hR.refl _
        · exact hR.refl _
      · exact hR.refl _

namespace Parser

variable {enter enter' : Nat → Text → Run Reply}

/-- Two runs of a choice that agree on when the second side is run. -/
theorem orElse_congr
    (hR : Run.Congruence R)
    (hchoice : s.eagerChoice = t.eagerChoice)
    {p q : Parser} {input : Text}
    (hp : R (p.eval s enter input) (p.eval t enter' input))
    (hq : R (q.eval s enter input) (q.eval t enter' input)) :
    R ((p.orElse q).eval s enter input) ((p.orElse q).eval t enter' input) := by
  simp only [eval, hchoice]
  refine hR.bind (hR.refl _) fun _ => hR.bind hp fun r => ?_
  split
  · exact hR.refl _
  · exact hR.bind hq fun _ => hR.refl _

/-- **Congruence of evaluation.**  What is related for the cells, the records
and the choices is related for every parser. -/
theorem eval_congr
    (hR : Run.Congruence R)
    (hrecord : ∀ r, R (record s r) (record t r))
    (hchoice : ∀ (p q : Parser) (input : Text),
      R (p.eval s enter input) (p.eval t enter' input) →
      R (q.eval s enter input) (q.eval t enter' input) →
      R ((p.orElse q).eval s enter input)
        ((p.orElse q).eval t enter' input))
    {p : Parser}
    (henter : ∀ id, p.Refers id → ∀ t, R (enter id t) (enter' id t))
    (input : Text) :
    R (p.eval s enter input) (p.eval t enter' input) := by
  induction p generalizing input with
  | leaf l => exact hR.refl _
  | map p f ih =>
      have hp := ih henter input
      simp only [eval]
      exact hR.bind (hR.refl _) fun _ => hR.bind hp fun _ => hR.refl _
  | bind p f ihp ihf =>
      have hp := ihp (fun id hid => henter id (.inl hid)) input
      have hf := fun v => ihf v fun id hid => henter id (.inr ⟨v, hid⟩)
      simp only [eval]
      refine hR.bind (hR.refl _) fun _ => hR.bind hp fun r => ?_
      cases r with
      | success v rest => exact hf v rest
      | discarded rest => exact hf .nothing rest
      | failure expected rest => exact hR.refl _
  | orElse p q ihp ihq =>
      have hp := ihp (fun id hid => henter id (.inl hid)) input
      have hq := ihq (fun id hid => henter id (.inr hid)) input
      exact hchoice p q input hp hq
  | label text p ih =>
      have hp := ih henter input
      simp only [eval]
      refine hR.bind (hR.refl _) fun _ => hR.bind (hrecord _) fun _ =>
        hR.bind hp fun r => ?_
      cases r with
      | success v rest => exact hR.refl _
      | discarded rest => exact hR.refl _
      | failure expected rest => exact hR.bind (hrecord _) fun _ => hR.refl _
  | ignore p ih =>
      have hp := ih henter input
      simp only [eval]
      exact hR.bind (hR.refl _) fun _ => hR.bind hp fun _ => hR.refl _
  | keepFirst p q ihp ihq =>
      have hp := ihp (fun id hid => henter id (.inl hid)) input
      have hq := ihq fun id hid => henter id (.inr hid)
      simp only [eval]
      refine hR.bind (hR.refl _) fun _ => hR.bind hp fun r => ?_
      split
      · exact hR.bind (hq r.rest) fun _ => hR.refl _
      · exact hR.refl _
  | notFollowedBy p ih =>
      have hp := ih henter input
      simp only [eval]
      exact hR.bind (hR.refl _) fun _ => hR.bind hp fun _ => hR.refl _
  | append p q concat ihp ihq =>
      have hp := ihp (fun id hid => henter id (.inl hid)) input
      have hq := ihq fun id hid => henter id (.inr hid)
      simp only [eval]
      refine hR.bind (hR.refl _) fun _ => hR.bind hp fun r => ?_
      split
      · exact hR.bind (hq r.rest) fun _ => hR.refl _
      · exact hR.refl _
  | many p ih =>
      have hchain := chain_congr hR (ih henter) input.length input
      simp only [eval]
      exact hR.bind (hR.refl _) fun _ => hR.bind hchain fun _ => hR.refl _
  | lookAhead p ih =>
      have hp := ih henter input
      simp only [eval]
      exact hR.bind (hR.refl _) fun _ => hR.bind hp fun _ => hR.refl _
  | probe tag p ih =>
      have hp := ih henter input
      simp only [eval]
      exact hR.bind (hR.refl _) fun _ => hR.bind (hR.refl _) fun _ => hp
  | cell id =>
      simp only [eval]
      exact hR.bind (hR.refl _) fun _ => henter id rfl input

end Parser

namespace Grammar

variable {g h : Grammar} {extra : Nat}

/-- Two grammars can be compared on some cells: at each of these, either both
grammars have one definition, which leads to such cells only, or its runs are
related without a look at definitions. -/
def Comparable
    (R : ∀ ⦃α : Type⦄, Run α → Run α → Prop) (s t : Settings)
    (g h : Grammar) (C : Nat → Prop) : Prop :=
  ∀ id, C id →
    (∃ definition, g.cells[id]? = some (some definition) ∧
      h.cells[id]? = some (some definition) ∧
      ∀ id', definition.Refers id' → C id') ∨
    ∀ limit limit' input,
      R (g.enter s (limit + 1) id input) (h.enter t (limit' + 1) id input)

/-- **Congruence of runs.**  The runs of the cells without any nesting left on
the first side, the records and the choices being related, so are the two runs
of every parser at every limit, if the grammars can be compared on its
cells. -/
theorem run_congr_of_cells
    (hR : Run.Congruence R)
    {C : Nat → Prop}
    (hcells : Comparable R s t g h C)
    (hbase : ∀ id input, R (g.enter s 0 id input) (h.enter t extra id input))
    (hrecord : ∀ r, R (Parser.record s r) (Parser.record t r))
    (hchoice : ∀ (limit : Nat) (p q : Parser) (input : Text),
      R (g.run s limit p input) (h.run t (extra + limit) p input) →
      R (g.run s limit q input) (h.run t (extra + limit) q input) →
      R (g.run s limit (p.orElse q) input)
        (h.run t (extra + limit) (p.orElse q) input))
    (limit : Nat) {p : Parser} (hp : ∀ id, p.Refers id → C id) (input : Text) :
    R (g.run s limit p input) (h.run t (extra + limit) p input) := by
  induction limit generalizing p input with
  | zero =>
      have henter := fun id (_ : p.Refers id) => hbase id
      exact Parser.eval_congr hR hrecord (hchoice 0) henter input
  | succ limit ih =>
      refine Parser.eval_congr hR hrecord (hchoice (limit + 1)) ?_ input
      intro id hid input'
      rcases hcells id (hp id hid) with ⟨definition, hg, hh, hleads⟩ | hown
      · rw [enter, hg, ← Nat.add_assoc, enter, hh]
        exact ih hleads input'
      · exact hown limit (extra + limit) input'

/-- Two grammars can be compared where they are the same. -/
theorem comparable_of_cells_eq
    (hR : Run.Congruence R)
    {C : Nat → Prop}
    (hsame : ∀ id, C id → h.cells[id]? = g.cells[id]?)
    (hleads : ∀ {id definition}, C id →
      g.cells[id]? = some (some definition) →
      ∀ id', definition.Refers id' → C id') :
    Comparable R s t g h C := by
  intro id hid
  have hcell := hsame id hid
  match hg : g.cells[id]? with
  | some (some definition) =>
      exact .inl ⟨definition, rfl, hcell.trans hg, hleads hid hg⟩
  | some none =>
      refine .inr fun limit limit' input => ?_
      rw [enter, enter, hcell, hg]
      exact hR.refl _
  | none =>
      refine .inr fun limit limit' input => ?_
      rw [enter, enter, hcell, hg]
      exact hR.refl _

/-- Congruence of runs in one grammar. -/
theorem run_congr
    (hR : Run.Congruence R)
    (hbase : ∀ id input, R (g.enter s 0 id input) (g.enter t extra id input))
    (hrecord : ∀ r, R (Parser.record s r) (Parser.record t r))
    (hchoice : ∀ (limit : Nat) (p q : Parser) (input : Text),
      R (g.run s limit p input) (g.run t (extra + limit) p input) →
      R (g.run s limit q input) (g.run t (extra + limit) q input) →
      R (g.run s limit (p.orElse q) input)
        (g.run t (extra + limit) (p.orElse q) input))
    (limit : Nat) (p : Parser) (input : Text) :
    R (g.run s limit p input) (g.run t (extra + limit) p input) :=
  have hcells : Comparable R s t g g fun _ => True :=
    comparable_of_cells_eq hR (fun _ _ => rfl) fun _ _ _ _ => trivial
  run_congr_of_cells hR hcells hbase hrecord hchoice limit (fun _ _ => trivial)
    input

/-- Congruence of runs with one setting and one limit in two grammars. -/
theorem run_congr_of_comparable
    (hR : Run.Congruence R)
    {C : Nat → Prop}
    (hcells : Comparable R s s g h C)
    (limit : Nat) {p : Parser} (hp : ∀ id, p.Refers id → C id) (input : Text) :
    R (g.run s limit p input) (h.run s limit p input) := by
  have hrun : R (g.run s limit p input) (h.run s (0 + limit) p input) :=
    run_congr_of_cells hR hcells (fun _ _ => hR.refl _) (fun _ => hR.refl _)
      (fun _ _ _ _ => Parser.orElse_congr hR rfl) limit hp input
  rwa [Nat.zero_add] at hrun

end Grammar

end ParserAlgebra
