import ParserAlgebra.Proofs.Repetition
import ParserAlgebra.Proofs.Run.Conclusion
import ParserAlgebra.Proofs.Termination.Leaf
/-!
# Repetition by recursion

A repetition can be told without a loop, by a cell whose definition is the parser and
then the cell again, or else the empty list.  The loop goes through a text from left to
right and stops by itself; the cell nests once for every item, and comes to its end by a
failure, after which the choice takes the empty list.

Both follow the same chain of successes, since each of these leaves a shorter text.
Where the chain ends at a failure, both give the list of its outputs
(`concludes_cell_of_maximalChain`).  Where it ends at a text on which the parser gives
no reply at all (`CutChain`), both are cut short for the same reason, be it a fault or
a run without end (`concludes_many_of_cutChain`, `concludes_cell_of_cutChain`).  There
is no third way for a chain to end (`exists_chain`), so the two have the same outcome
on every text (`concludes_cell_iff_many`).
-/

namespace ParserAlgebra

/-- The parser and then the cell, or else nothing: a repetition, if it is the definition
of the cell. -/
def Parser.unrolled (p : Parser) (id : Nat) : Parser :=
  (p.prepend (cell id)).orElse (pure (.list []))

/-- The outputs of a chain of successes, with the text that each of them leaves, up to
a text on which the parser stops without a reply. -/
inductive CutChain (R : Text → Outcome Reply → Prop) (stop : Stop) :
    Text → List (Value × Text) → Prop
  | here {input : Text} (hstop : R input (.error stop)) : CutChain R stop input []
  | more {input rest : Text} {r : Reply} {v : Value} {links : List (Value × Text)}
      (hreply : R input (.ok r)) (haccept : r.accepted? = some (v, rest))
      (hlength : rest.length < input.length) (hrest : CutChain R stop rest links) :
      CutChain R stop input ((v, rest) :: links)

namespace Grammar

variable {g : Grammar} {s : Settings} {p : Parser} {input rest : Text} {id : Nat}
variable {r : Reply} {v : Value} {stop : Stop} {links : List (Value × Text)}

/-- From every text, the successes of a parser that take something off it make a chain
up to a reply that stalls, or up to a text without a reply. -/
theorem exists_chain (g : Grammar) (s : Settings) (p : Parser) (input : Text) :
    ∃ links, MaximalChain (g.Returns s p) input links ∨
      ∃ stop, CutChain (g.Concludes s p) stop input links := by
  induction hn : input.length using Nat.strongRecOn generalizing input with
  | ind n ih =>
      obtain ⟨o, ho, -⟩ := existsUnique_concludes g s p input
      cases o with
      | error stop => exact ⟨[], .inr ⟨stop, .here ho⟩⟩
      | ok r =>
          rcases r.stalls_or_accepts input with hstalls | ⟨v, rest, haccept, hlength⟩
          · exact ⟨[], .inl (.done (concludes_ok_iff.mp ho) hstalls)⟩
          · obtain ⟨links, hlinks⟩ := ih rest.length (hn ▸ hlength) rest rfl
            refine ⟨(v, rest) :: links, ?_⟩
            rcases hlinks with hlinks | ⟨stop, hlinks⟩
            · exact .inl (.more (concludes_ok_iff.mp ho) haccept hlength hlinks)
            · exact .inr ⟨stop, .more ho haccept hlength hlinks⟩

section Loop

/-- What is done with the outputs of a loop does not cut it short. -/
theorem outcome_run_many_eq_error_iff {limit : Nat} :
    (g.run s limit p.many input).outcome = .error stop ↔
      (chain (g.run s limit p) input.length input).outcome = .error stop := by
  rw [outcome_run_many]
  cases (chain (g.run s limit p) input.length input).outcome with
  | error stop' => simp [Except.map]
  | ok accepted => simp [Except.map]

theorem concludes_many_of_error (hp : g.Concludes s p input (.error stop)) :
    g.Concludes s p.many input (.error stop) := by
  obtain ⟨enough, hp⟩ := hp
  refine ⟨enough, fun limit hle => ?_⟩
  rw [outcome_run_many_eq_error_iff, ← chain_succ_of_length_le _ _ _ (Nat.le_refl _),
    chain, Run.outcome_bind, hp limit hle]
  rfl

/-- Where the rest of the loop is cut short, so is the loop. -/
theorem concludes_many_of_error_right (hp : g.Concludes s p input (.ok r))
    (haccept : r.accepted? = some (v, rest)) (hlength : rest.length < input.length)
    (hrest : g.Concludes s p.many rest (.error stop)) :
    g.Concludes s p.many input (.error stop) := by
  obtain ⟨enough, hp⟩ := hp
  obtain ⟨enough', hrest⟩ := hrest
  refine ⟨max enough enough', fun limit hle => ?_⟩
  have hreply := hp limit (by omega)
  have hlater := outcome_run_many_eq_error_iff.mp (hrest limit (by omega))
  rw [← chain_of_length_le _ (Nat.le_of_lt hlength)] at hlater
  rw [outcome_run_many_eq_error_iff, ← chain_succ_of_length_le _ _ _ (Nat.le_refl _),
    chain_of_accepted? hreply haccept hlength, Run.outcome_bind, hreply]
  simp only [Except.bind, Run.outcome_bind, hlater]

/-- A loop is cut short where its chain is. -/
theorem concludes_many_of_cutChain (h : CutChain (g.Concludes s p) stop input links) :
    g.Concludes s p.many input (.error stop) := by
  induction h with
  | here hstop => exact concludes_many_of_error hstop
  | more hreply haccept hlength _ ih =>
      exact concludes_many_of_error_right hreply haccept hlength ih

end Loop

section Cell

variable (hcell : g.cells[id]? = some (some (p.unrolled id)))

include hcell

/-- The cell gives the list of the outputs of a chain, if it ends at a failure. -/
theorem concludes_cell_of_maximalChain
    (hshorter : ∀ t r, g.Returns s p t r → r.isSuccess → r.rest.length < t.length)
    (h : MaximalChain (g.Returns s p) input links) :
    g.Concludes s (.cell id) input
      (.ok (.success (.list (links.map Prod.fst)) (lastRest input links))) := by
  have hnothing : ∀ t, g.Concludes s (.pure (.list [])) t (.ok (.success (.list []) t)) :=
    fun t => concludes_leaf rfl
  apply concludes_cell hcell
  induction h with
  | @done input r hreply hstalls =>
      rcases r.fails_or_accepts with ⟨e, t, rfl⟩ | ⟨v, rest, haccept⟩
      · have hleft := concludes_prepend_of_failure (q := .cell id)
          (concludes_ok_iff.mpr hreply)
        exact concludes_orElse_of_failure hleft (hnothing input) rfl
      · -- a success leaves a shorter text, and so does not stall
        have hlength := hshorter _ _ hreply (Reply.isSuccess_of_accepted? haccept)
        rw [Reply.rest_of_accepted? haccept] at hlength
        exact absurd (hstalls v rest haccept) (by omega)
  | more hreply haccept _ _ ih =>
      have hrest := concludes_cell hcell ih
      have hleft := concludes_prepend (concludes_ok_iff.mpr hreply) haccept hrest
      exact concludes_orElse_of_success hleft rfl (hnothing _)

/-- The cell is cut short where the chain is, however deep it has nested. -/
theorem concludes_cell_of_cutChain (h : CutChain (g.Concludes s p) stop input links) :
    g.Concludes s (.cell id) input (.error stop) := by
  apply concludes_cell hcell
  apply concludes_orElse_of_error
  induction h with
  | here hstop => exact concludes_prepend_of_error hstop
  | more hreply haccept _ _ ih =>
      have hrest := concludes_cell hcell (concludes_orElse_of_error ih)
      exact concludes_prepend_of_error_right hreply haccept hrest

/-- **Repetition by recursion.**  If each success of a parser leaves a shorter text,
then its repetition and the cell that is defined as the parser and the cell again, or
else nothing, have the same outcome on every text.  They are cut short exactly where
the parser itself is cut short, after some successes, and for the same reason. -/
theorem concludes_cell_iff_many
    (hshorter : ∀ t r, g.Returns s p t r → r.isSuccess → r.rest.length < t.length)
    (input : Text) :
    (∀ o, g.Concludes s (.cell id) input o ↔ g.Concludes s p.many input o) ∧
      ∀ stop, g.Concludes s p.many input (.error stop) ↔
        ∃ links, CutChain (g.Concludes s p) stop input links := by
  have hsame : ∃ o, g.Concludes s (.cell id) input o ∧ g.Concludes s p.many input o ∧
      ∀ stop, o = .error stop → ∃ links, CutChain (g.Concludes s p) stop input links := by
    obtain ⟨links, hlinks | ⟨stop, hlinks⟩⟩ := exists_chain g s p input
    · have hloop := concludes_many hlinks
      have hown := concludes_cell_of_maximalChain hcell hshorter hlinks
      exact ⟨_, hown, hloop, fun stop hstop => by cases hstop⟩
    · have hloop := concludes_many_of_cutChain hlinks
      have hown := concludes_cell_of_cutChain hcell hlinks
      refine ⟨_, hown, hloop, fun stop' hstop => ?_⟩
      cases hstop
      exact ⟨links, hlinks⟩
  obtain ⟨o, hown, hloop, hcut⟩ := hsame
  constructor
  · intro o'
    constructor
    · intro h
      rwa [h.eq hown]
    · intro h
      rwa [h.eq hloop]
  · intro stop
    constructor
    · intro h
      exact hcut stop (hloop.eq h)
    · intro ⟨links, hlinks⟩
      exact concludes_many_of_cutChain hlinks

end Cell

/-- One cell, which is tied to digits and itself. -/
def digitCell : Grammar where
  cells := [some (Parser.digit.unrolled 0)]

/-- The cell that is declared and tied so reads the digits at the beginning of a text. -/
theorem digitCell_reads_digits :
    ({} : Grammar).declare.1.tie ({} : Grammar).declare.2 (Parser.digit.unrolled 0) =
        .ok digitCell ∧
      digitCell.cells[0]? = some (some (Parser.digit.unrolled 0)) ∧
      (∀ s t r, digitCell.Returns s .digit t r → r.isSuccess →
        r.rest.length < t.length) ∧
      ∀ s, digitCell.Concludes s (.cell 0) "12a"
        (.ok (.success (.list [.text "1", .text "2"]) "a")) := by
  have hcell : digitCell.cells[0]? = some (some (Parser.digit.unrolled 0)) := rfl
  have hshorter : ∀ s t r, digitCell.Returns s .digit t r → r.isSuccess →
      r.rest.length < t.length := by
    intro s t r ⟨limit, h⟩ hr
    have hstrict : Leaf.Strict (.satisfy Alphabet.decimal.contains "digitChar") := trivial
    exact hstrict.length_lt_of_run h hr
  refine ⟨rfl, hcell, hshorter, fun s => ?_⟩
  have hloop : digitCell.Concludes s (Parser.many .digit) "12a"
      (.ok (.success (.list [.text "1", .text "2"]) "a")) := ⟨0, fun limit _ => rfl⟩
  exact ((concludes_cell_iff_many hcell (hshorter s) "12a").1 _).mpr hloop

end Grammar

end ParserAlgebra
