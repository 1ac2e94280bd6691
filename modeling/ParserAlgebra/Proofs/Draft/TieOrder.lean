import Mathlib.Data.List.Nodup
import ParserAlgebra.Proofs.Draft.Protocol
import ParserAlgebra.Proofs.Run.Limit
/-!
# The order of tying

Recursive parsers are tied one by one, and the definition of each may refer to
others that are still awaiting theirs.  The order does not matter, nor does what
is made and run in between.

* `tie_comm`: ties of different parsers commute, since each writes to its own
  parser and looks at nothing else.
* `after_tie_comm`: a tie may also wait until a further parser has been made.
* `afterAll_eq_tieAll`: so all ties of a sequence of calls can be moved to its
  end, where they can be permuted.
* `run_afterAll_of_perm`: what this says about runs.  A tied parser does what
  its target does, once all calls have been made.
-/

namespace ParserAlgebra

/-- The parser that a call ties, and its target. -/
def Call.tie? : Call → Option (Nat × Nat)
  | .tie x target => some (x, target)
  | _ => none

theorem Call.mem_filterMap_tie? {calls : List Call} {x target : Nat} :
    (x, target) ∈ calls.filterMap Call.tie? ↔ .tie x target ∈ calls := by
  rw [List.mem_filterMap]
  constructor
  · rintro ⟨call, hcall, htie⟩
    cases call with
    | tie y target' =>
        cases htie
        exact hcall
    | _ => cases htie
  · intro h
    exact ⟨_, h, rfl⟩

namespace Draft

variable {d : Draft} {x y target target' : Nat} {calls calls' : List Call}

theorem ext_cells {d d' : Draft} (h : ∀ z : Nat, d.cells[z]? = d'.cells[z]?) :
    d = d' :=
  congrArg Draft.mk (List.ext_getElem? h)

@[simp] theorem length_tie (d : Draft) (x target : Nat) :
    (d.tie x target).1.cells.length = d.cells.length :=
  length_after d (.tie x target)

/-- Ties of different parsers commute. -/
theorem tie_comm (d : Draft) (hxy : x ≠ y) (target target' : Nat) :
    ((d.tie x target).1.tie y target').1 = ((d.tie y target').1.tie x target).1 := by
  refine ext_cells fun z => ?_
  simp only [cells_tie, Option.map_map]
  congr 1
  funext c
  by_cases hzx : z = x
  · have hzy : z ≠ y := fun hzy => hxy (hzx.symm.trans hzy)
    simp [Cell.after, hzy]
  · simp [Cell.after, hzx]

/-- A parser may be tied before or after a further one is added. -/
theorem tie_append (hx : x < d.cells.length) (target : Nat) (c : Cell) :
    (Draft.tie { cells := d.cells ++ [c] } x target).1 =
      { cells := (d.tie x target).1.cells ++ [c] } := by
  refine ext_cells fun z => ?_
  rw [cells_tie]
  by_cases hz : z < d.cells.length
  · rw [List.getElem?_append_left hz,
      List.getElem?_append_left (by rwa [length_tie]), cells_tie]
  · have hne : z ≠ x := by omega
    rw [List.getElem?_append_right (by omega),
      List.getElem?_append_right (by rw [length_tie]; omega), length_tie]
    simp [Cell.after, hne]

/-- A parser may be tied before or after a further one is made. -/
theorem after_tie_comm (hx : x < d.cells.length) (target : Nat) {call : Call}
    (hcall : call.makes) :
    (d.tie x target).1.after call = ((d.after call).tie x target).1 := by
  cases call with
  | make p => exact (tie_append hx target _).symm
  | declare => exact (tie_append hx target _).symm
  | tie y target' => cases hcall
  | run settings limit p input => cases hcall

/-- A parser may be tied before or after further ones are made. -/
theorem afterAll_tie_comm (hx : x < d.cells.length) (target : Nat)
    (hcalls : ∀ call ∈ calls, call.makes) :
    (d.tie x target).1.afterAll calls = ((d.afterAll calls).tie x target).1 := by
  induction calls generalizing d with
  | nil => rfl
  | cons call calls ih =>
      obtain ⟨hcall, hcalls⟩ := List.forall_mem_cons.mp hcalls
      have hx' : x < (d.after call).cells.length := by
        rw [length_after, if_pos hcall]
        omega
      calc (d.tie x target).1.afterAll (call :: calls)
          = ((d.after call).tie x target).1.afterAll calls := by
            rw [← after_tie_comm hx target hcall]
            rfl
        _ = ((d.afterAll (call :: calls)).tie x target).1 := ih hx' hcalls

/-- Ties parsers to their targets, in order. -/
def tieAll (d : Draft) (ties : List (Nat × Nat)) : Draft :=
  ties.foldl (fun d tie => (d.tie tie.1 tie.2).1) d

/-- **Ties last.**  All ties may wait until everything has been made. -/
theorem afterAll_eq_tieAll
    (hdeclared : ∀ tie ∈ calls.filterMap Call.tie?, tie.1 < d.cells.length) :
    d.afterAll calls =
      (d.afterAll (calls.filter Call.makes)).tieAll
        (calls.filterMap Call.tie?) := by
  induction calls generalizing d with
  | nil => rfl
  | cons call calls ih =>
      have hlen := length_after d call
      cases call with
      | make p =>
          exact ih fun tie htie =>
            Nat.lt_of_lt_of_eq (Nat.lt_succ_of_lt (hdeclared tie htie)) hlen.symm
      | declare =>
          exact ih fun tie htie =>
            Nat.lt_of_lt_of_eq (Nat.lt_succ_of_lt (hdeclared tie htie)) hlen.symm
      | tie x target =>
          obtain ⟨hx, hdeclared⟩ := List.forall_mem_cons.mp hdeclared
          have hmakes : ∀ call ∈ calls.filter Call.makes, call.makes :=
            fun _ h => (List.mem_filter.mp h).2
          have hlater := ih fun tie htie =>
            Nat.lt_of_lt_of_eq (hdeclared tie htie) hlen.symm
          -- the tie is moved past everything that is made after it
          rw [after, afterAll_tie_comm hx target hmakes] at hlater
          exact hlater
      | run settings limit p input => exact ih hdeclared

/-- Ties of different parsers may be made in any order. -/
theorem tieAll_perm {ties ties' : List (Nat × Nat)} (hperm : ties.Perm ties')
    (hdistinct : (ties.map Prod.fst).Nodup) (d : Draft) :
    d.tieAll ties = d.tieAll ties' := by
  refine hperm.foldl_eq' (fun tie htie tie' htie' d => ?_) d
  by_cases hfst : tie.1 = tie'.1
  · rw [List.inj_on_of_nodup_map hdistinct htie htie' hfst]
  · exact tie_comm d hfst _ _

/-- A parser that is tied once has the target of this call. -/
theorem cells_afterAll_of_tie
    (hdistinct : ((calls.filterMap Call.tie?).map Prod.fst).Nodup)
    (hx : d.status x = .awaiting) (htie : .tie x target ∈ calls) :
    (d.afterAll calls).cells[x]? =
      some { action := some (.cell target), status := .tied } := by
  obtain ⟨c, hc, hawaiting⟩ := status_eq_awaiting_iff.mp hx
  rw [cells_afterAll hc]
  rcases notMem_or_exists_first_tie x calls with
    hnone | ⟨between, first, later, rfl, hbetween⟩
  · exact absurd htie (hnone target)
  · -- the first tie is the only one
    have hfirst : .tie x first ∈ between ++ .tie x first :: later :=
      List.mem_append_right _ List.mem_cons_self
    have hsame : (x, first) = (x, target) :=
      List.inj_on_of_nodup_map hdistinct (Call.mem_filterMap_tie?.mpr hfirst)
        (Call.mem_filterMap_tie?.mpr htie) rfl
    cases hsame
    rw [Cell.foldl_after_of_tie hawaiting hbetween]

/-- A tied parser does what its target does. -/
theorem concludes_cell_iff
    (hx : d.cells[x]? = some { action := some (.cell target), status := .tied })
    (s : Settings) (input : Text) (o : Outcome Reply) :
    d.grammar.Concludes s (.cell x) input o ↔
      d.grammar.Concludes s (.cell target) input o := by
  have hstep := fun limit => outcome_run_cell hx s limit input
  constructor
  · rintro ⟨enough, h⟩
    refine ⟨enough, fun limit hle => ?_⟩
    exact (hstep limit).symm.trans (h (limit + 1) (Nat.le_succ_of_le hle))
  · rintro ⟨enough, h⟩
    refine ⟨enough + 1, fun limit hle => ?_⟩
    obtain ⟨limit, rfl⟩ := Nat.exists_eq_add_of_le' hle
    exact (hstep _).trans (h _ (Nat.le_add_left enough limit))

/-- **The order of tying does not matter.**  If two sequences of calls make the
same parsers in the same order, and tie the same parsers, which have been
declared, to the same targets, but in any order, then every run is the same
after both.  Then each tied parser has the outcomes of its target. -/
theorem run_afterAll_of_perm
    (hmade : calls.filter Call.makes = calls'.filter Call.makes)
    (hties : (calls.filterMap Call.tie?).Perm (calls'.filterMap Call.tie?))
    (hdistinct : ((calls.filterMap Call.tie?).map Prod.fst).Nodup)
    (hawaiting : ∀ tie ∈ calls.filterMap Call.tie?,
      d.status tie.1 = .awaiting) :
    (∀ s limit p input, (d.afterAll calls).run s limit p input =
      (d.afterAll calls').run s limit p input) ∧
    ∀ x target, .tie x target ∈ calls → ∀ s input o,
      (d.afterAll calls).grammar.Concludes s (.cell x) input o ↔
        (d.afterAll calls).grammar.Concludes s (.cell target) input o := by
  have hdeclared : ∀ tie ∈ calls.filterMap Call.tie?, tie.1 < d.cells.length := by
    intro tie htie
    obtain ⟨c, hc, -⟩ := status_eq_awaiting_iff.mp (hawaiting tie htie)
    exact (List.getElem?_eq_some_iff.mp hc).1
  have hdeclared' : ∀ tie ∈ calls'.filterMap Call.tie?, tie.1 < d.cells.length :=
    fun tie htie => hdeclared tie (hties.mem_iff.mpr htie)
  have hsame : d.afterAll calls = d.afterAll calls' := by
    rw [afterAll_eq_tieAll hdeclared, afterAll_eq_tieAll hdeclared', hmade]
    exact tieAll_perm hties hdistinct _
  refine ⟨fun s limit p input => by rw [hsame], fun x target htie => ?_⟩
  have hx : d.status x = .awaiting :=
    hawaiting _ (Call.mem_filterMap_tie?.mpr htie)
  exact concludes_cell_iff (cells_afterAll_of_tie hdistinct hx htie)

/-- Other last calls for the grammar of sums (`sumCalls`): terms are tied first,
and run before sums are tied. -/
def termsFirst : List Call :=
  [.tie 1 3, .run {} 3 (.cell 1) "(7)", .tie 0 2]

/-- Sums and terms can be tied in either order. -/
theorem sumCalls_tie_order :
    (∀ s limit p input, (afterAll {} sumCalls).run s limit p input =
      ((afterAll {} (sumCalls.take 4)).afterAll termsFirst).run s limit p input) ∧
    (∀ s input o, (afterAll {} sumCalls).grammar.Concludes s (.cell 1) input o ↔
      (afterAll {} sumCalls).grammar.Concludes s (.cell 3) input o) ∧
    ((afterAll {} sumCalls).run {} 8 (.cell 1) "(7)").outcome =
      .ok (.success (.list [.int 7]) []) := by
  have hmade : (sumCalls.drop 4).filter Call.makes =
      termsFirst.filter Call.makes := rfl
  have hties : ((sumCalls.drop 4).filterMap Call.tie?).Perm
      (termsFirst.filterMap Call.tie?) := .swap (1, 3) (0, 2) []
  have hawaiting : ∀ tie ∈ (sumCalls.drop 4).filterMap Call.tie?,
      (afterAll {} (sumCalls.take 4)).status tie.1 = .awaiting := by decide
  obtain ⟨horder, htied⟩ :=
    run_afterAll_of_perm hmade hties (by decide) hawaiting
  exact ⟨horder, htied 1 3 (by simp [sumCalls]), rfl⟩

end Draft

end ParserAlgebra
