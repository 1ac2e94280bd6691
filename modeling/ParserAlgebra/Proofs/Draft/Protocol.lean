import Mathlib.Data.List.Basic
import ParserAlgebra.Draft
import ParserAlgebra.Parser.Lexeme
import ParserAlgebra.Parser.Repetition
/-!
# The recursion protocol

A grammar is made by a sequence of calls, in any order, with runs in between.
After any of them, what is kept of a parser is settled by its own history: the
call that made it, and the first call after that which ties it.

* `Cell.after`: what one call does to one parser.  A call writes nothing but the
  parser that it ties, and that only while it is awaiting this
  (`cells_after`).
* `cells_afterAll`: from this, what any sequence of calls does to it, as a fold
  over the sequence.  Of the calls that tie it, the first one counts.
* `situation_of_cells`: so there are three situations in which a parser can be.
* `recursion_protocol`: what it runs in each of them, and the one way out of one
  of them.
-/

namespace ParserAlgebra

/-- A call on a grammar in the making.  Parsers are named by their numbers. -/
inductive Call where
  /-- Makes a parser from a tree. -/
  | make (p : Parser)
  /-- Makes a recursive parser. -/
  | declare
  /-- Ties a parser to a target. -/
  | tie (x target : Nat)
  /-- Runs a parser. -/
  | run (settings : Settings) (limit : Nat) (p : Parser) (input : Text)

/-- The call makes a parser. -/
def Call.makes : Call → Bool
  | .make _ => true
  | .declare => true
  | .tie _ _ => false
  | .run _ _ _ _ => false

namespace Draft

/-- The draft after a call, also after a refused one. -/
def after (d : Draft) : Call → Draft
  | .make p => (d.make p).1
  | .declare => d.declare.1
  | .tie x target => (d.tie x target).1
  | .run _ _ _ _ => d

/-- The draft after some calls, in order. -/
def afterAll (d : Draft) (calls : List Call) : Draft := calls.foldl after d

variable {d : Draft} {x y target : Nat} {c : Cell} {calls later : List Call}

theorem afterAll_append (d : Draft) (calls later : List Call) :
    d.afterAll (calls ++ later) = (d.afterAll calls).afterAll later :=
  List.foldl_append

theorem status_of_cells (h : d.cells[x]? = some c) : d.status x = c.status := by
  unfold status
  rw [h]

theorem status_eq_awaiting_iff :
    d.status x = .awaiting ↔ ∃ c, d.cells[x]? = some c ∧ c.status = .awaiting := by
  unfold status
  cases d.cells[x]? with
  | none => simp
  | some c => simp

/-- Exactly a parser that is awaiting a target can be tied. -/
theorem tie_outcome_eq_ok_iff :
    (d.tie x target).2.outcome = .ok () ↔ d.status x = .awaiting := by
  unfold tie
  split
  · next h => simp [h, Run.ofExcept, Outcome.ofExcept]
  · next h => simp [h, Run.ofExcept, Outcome.ofExcept]
  · next h => simp [h, Run.log, Run.emit]

/-- A refused call says why, and leaves everything as it was. -/
theorem tie_of_status_ne_awaiting (h : d.status x ≠ .awaiting) (target : Nat) :
    (d.tie x target).1 = d ∧
      ((d.tie x target).2.outcome = .error (.fault .notRecursive) ∨
        (d.tie x target).2.outcome = .error (.fault .alreadyDefined)) := by
  unfold tie
  split
  · exact ⟨rfl, .inl rfl⟩
  · exact ⟨rfl, .inr rfl⟩
  · next hx => exact absurd hx h

/-- What a call does to the parser with this number. -/
def Cell.after (x : Nat) (c : Cell) : Call → Cell
  | .tie y target =>
    if x = y ∧ c.status = .awaiting then
      { action := some (.cell target), status := .tied }
    else c
  | _ => c

theorem cells_setAction (d : Draft) (x y : Nat) (p : Parser) :
    (d.setAction y p).cells[x]? =
      d.cells[x]?.map fun c => if y = x then { c with action := some p } else c :=
  List.getElem?_modify _ _ _ _

theorem cells_setStatus (d : Draft) (x y : Nat) (s : Status) :
    (d.setStatus y s).cells[x]? =
      d.cells[x]?.map fun c => if y = x then { c with status := s } else c :=
  List.getElem?_modify _ _ _ _

/-- Tying writes to one parser only, and to that only while it is awaiting its
target.  The two writes together leave nothing of what was kept. -/
theorem cells_tie (d : Draft) (x y target : Nat) :
    (d.tie y target).1.cells[x]? =
      d.cells[x]?.map fun c => c.after x (.tie y target) := by
  by_cases hy : d.status y = .awaiting
  · have htie : (d.tie y target).1 =
        (d.setAction y (.cell target)).setStatus y .tied := by
      simp only [tie, hy]
    rw [htie, cells_setStatus, cells_setAction]
    cases hx : d.cells[x]? with
    | none => rfl
    | some c =>
        by_cases hxy : y = x
        · subst hxy
          have hc : c.status = .awaiting := (status_of_cells hx).symm.trans hy
          simp [Cell.after, hc]
        · have hyx : x ≠ y := fun h => hxy h.symm
          simp [Cell.after, hxy, hyx]
  · rw [(tie_of_status_ne_awaiting hy target).1]
    cases hx : d.cells[x]? with
    | none => rfl
    | some c =>
        have hc : ¬ (x = y ∧ c.status = .awaiting) := by
          rintro ⟨rfl, hc⟩
          exact hy ((status_of_cells hx).trans hc)
        simp [Cell.after, hc]

/-- A call that makes a parser gives it the next number. -/
theorem length_after (d : Draft) (call : Call) :
    (d.after call).cells.length =
      if call.makes then d.cells.length + 1 else d.cells.length := by
  cases call with
  | make p => simp [after, make, Call.makes]
  | declare => simp [after, declare, Call.makes]
  | tie x target =>
      simp only [after, tie]
      split <;> simp [setAction, setStatus, Call.makes]
  | run settings limit p input => rfl

/-- What a call does to a parser is settled by what is kept of that parser. -/
theorem cells_after (h : d.cells[x]? = some c) (call : Call) :
    (d.after call).cells[x]? = some (c.after x call) := by
  have hlt : x < d.cells.length := (List.getElem?_eq_some_iff.mp h).1
  cases call with
  | make p => simp [after, make, List.getElem?_append_left hlt, h, Cell.after]
  | declare => simp [after, declare, List.getElem?_append_left hlt, h, Cell.after]
  | tie y target => rw [after, cells_tie, h, Option.map_some]
  | run settings limit p input => exact h

/-- **Local history.**  What calls make of a parser does not depend on other
parsers. -/
theorem cells_afterAll (h : d.cells[x]? = some c) (calls : List Call) :
    (d.afterAll calls).cells[x]? = some (calls.foldl (Cell.after x) c) := by
  induction calls generalizing d c with
  | nil => exact h
  | cons call calls ih => exact ih (cells_after h call)

/-- A parser that is not awaiting a target is never written to. -/
theorem Cell.foldl_after_of_ne_awaiting (h : c.status ≠ .awaiting)
    (calls : List Call) : calls.foldl (Cell.after x) c = c := by
  induction calls with
  | nil => rfl
  | cons call calls ih =>
      have hstep : c.after x call = c := by
        cases call with
        | tie y target => simp [Cell.after, h]
        | _ => rfl
      rw [List.foldl_cons, hstep, ih]

/-- A parser that is not tied stays as it was. -/
theorem Cell.foldl_after_of_notMem (h : ∀ target, .tie x target ∉ calls) :
    calls.foldl (Cell.after x) c = c := by
  induction calls with
  | nil => rfl
  | cons call calls ih =>
      have hstep : c.after x call = c := by
        cases call with
        | tie y target =>
            have hxy : x ≠ y := by
              rintro rfl
              exact h target List.mem_cons_self
            simp [Cell.after, hxy]
        | _ => rfl
      rw [List.foldl_cons, hstep]
      exact ih fun target hmem => h target (List.mem_cons_of_mem call hmem)

/-- Of the calls that tie an awaiting parser, the first one counts. -/
theorem Cell.foldl_after_of_tie (hc : c.status = .awaiting)
    (h : ∀ target', .tie x target' ∉ calls) (later : List Call) :
    (calls ++ .tie x target :: later).foldl (Cell.after x) c =
      { action := some (.cell target), status := .tied } := by
  have hstep : c.after x (.tie x target) =
      { action := some (.cell target), status := .tied } := by
    simp [Cell.after, hc]
  rw [List.foldl_append, Cell.foldl_after_of_notMem h, List.foldl_cons, hstep]
  exact Cell.foldl_after_of_ne_awaiting (by simp) later

/-- Some calls tie the parser or they do not, and if they do, one of them is
the first. -/
theorem notMem_or_exists_first_tie (x : Nat) (calls : List Call) :
    (∀ target, .tie x target ∉ calls) ∨
      ∃ between target later, calls = between ++ .tie x target :: later ∧
        ∀ target', .tie x target' ∉ between := by
  induction calls with
  | nil => exact .inl fun _ => List.not_mem_nil
  | cons call calls ih =>
      by_cases hcall : ∃ target, call = .tie x target
      · obtain ⟨target, rfl⟩ := hcall
        exact .inr ⟨[], target, calls, rfl, fun _ => List.not_mem_nil⟩
      · have hne : ∀ target, .tie x target ≠ call := fun target h =>
          hcall ⟨target, h.symm⟩
        rcases ih with hnone | ⟨between, target, later, rfl, hbetween⟩
        · exact .inl fun target =>
            List.not_mem_cons_of_ne_of_not_mem (hne target) (hnone target)
        · exact .inr ⟨call :: between, target, later, rfl, fun target' =>
            List.not_mem_cons_of_ne_of_not_mem (hne target') (hbetween target')⟩

/-- The one way in which calls write to a parser. -/
theorem Cell.foldl_after_eq_or_tied (calls : List Call) (c : Cell) :
    calls.foldl (Cell.after x) c = c ∨
      c.status = .awaiting ∧ (calls.foldl (Cell.after x) c).status = .tied := by
  by_cases hc : c.status = .awaiting
  · rcases notMem_or_exists_first_tie x calls with
      hnone | ⟨between, target, later, rfl, hbetween⟩
    · exact .inl (Cell.foldl_after_of_notMem hnone)
    · rw [Cell.foldl_after_of_tie hc hbetween]
      exact .inr ⟨hc, rfl⟩
  · exact .inl (Cell.foldl_after_of_ne_awaiting hc calls)

/-- Every parser was made by one of the calls. -/
theorem exists_call_makes (h : x < (d.afterAll calls).cells.length)
    (hd : d.cells.length ≤ x) :
    ∃ before call later, calls = before ++ call :: later ∧
      (d.afterAll before).cells.length = x ∧ call.makes := by
  induction calls generalizing d with
  | nil => exact absurd h (Nat.not_lt.mpr hd)
  | cons call calls ih =>
      by_cases hlen : (d.after call).cells.length ≤ x
      · obtain ⟨before, call', later, rfl, hbefore, hcall'⟩ := ih h hlen
        exact ⟨call :: before, call', later, rfl, hbefore, hcall'⟩
      · rw [length_after] at hlen
        split at hlen
        · next hcall =>
          have hx : d.cells.length = x := by omega
          exact ⟨[], call, calls, rfl, hx, hcall⟩
        · exact absurd hd hlen

/-- Among the calls, this one made the parser with this number, and was followed
by those. -/
def MadeBy (calls : List Call) (x : Nat) (call : Call) (later : List Call) :
    Prop :=
  ∃ before, calls = before ++ call :: later ∧
    (Draft.afterAll {} before).cells.length = x

/-- The situations of a parser after some calls, with what is kept of it. -/
inductive Situation (calls : List Call) (x : Nat) : Cell → Prop
  /-- It runs the tree that it was made from. -/
  | made {p : Parser} {later : List Call} (h : MadeBy calls x (.make p) later) :
      Situation calls x { action := some p, status := .nonRecursive }
  /-- It was declared and has not been tied since. -/
  | awaiting {later : List Call} (h : MadeBy calls x .declare later)
      (hlater : ∀ target, .tie x target ∉ later) :
      Situation calls x { action := none, status := .awaiting }
  /-- It was declared and runs the target to which it was tied first. -/
  | tied {between later : List Call} {target : Nat}
      (h : MadeBy calls x .declare (between ++ .tie x target :: later))
      (hbetween : ∀ target', .tie x target' ∉ between) :
      Situation calls x { action := some (.cell target), status := .tied }

/-- A parser that has something to run is not awaiting it. -/
theorem Situation.status_ne_awaiting (h : Situation calls x c)
    (haction : c.action ≠ none) : c.status ≠ .awaiting := by
  cases h with
  | made h => simp
  | awaiting h hlater => exact absurd rfl haction
  | tied h hbetween => simp

/-- **Reachable situations.**  Whatever the calls, each parser is in one of the
three situations. -/
theorem situation_of_cells (hx : (afterAll {} calls).cells[x]? = some c) :
    Situation calls x c := by
  have hlt : x < (afterAll {} calls).cells.length :=
    (List.getElem?_eq_some_iff.mp hx).1
  obtain ⟨before, call, later, rfl, hbefore, hcall⟩ :=
    exists_call_makes hlt (Nat.zero_le x)
  -- what is kept of the parser is what the calls after its making leave of it
  have hfold : ∀ new, ((afterAll {} before).after call).cells[x]? = some new →
      c = later.foldl (Cell.after x) new := by
    intro new hnew
    rw [afterAll_append] at hx
    exact Option.some.inj (hx.symm.trans (cells_afterAll hnew later))
  cases call with
  | make p =>
      have hc := hfold ⟨some p, .nonRecursive⟩ (by simp [after, make, ← hbefore])
      rw [Cell.foldl_after_of_ne_awaiting (by simp)] at hc
      subst hc
      exact .made ⟨before, rfl, hbefore⟩
  | declare =>
      have hc := hfold ⟨none, .awaiting⟩ (by simp [after, declare, ← hbefore])
      rcases notMem_or_exists_first_tie x later with
        hnone | ⟨between, target, later, rfl, hbetween⟩
      · rw [Cell.foldl_after_of_notMem hnone] at hc
        subst hc
        exact .awaiting ⟨before, rfl, hbefore⟩ hnone
      · rw [Cell.foldl_after_of_tie rfl hbetween] at hc
        subst hc
        exact .tied ⟨before, rfl, hbefore⟩ hbetween
  | tie y target => cases hcall
  | run settings limit p input => cases hcall

theorem grammar_cells (d : Draft) (x : Nat) :
    d.grammar.cells[x]? = d.cells[x]?.map Cell.action :=
  List.getElem?_map

/-- A parser runs what is kept of it as its action, one level deeper. -/
theorem outcome_run_cell (hx : d.cells[x]? = some c) (s : Settings) (limit : Nat)
    (input : Text) :
    (d.run s (limit + 1) (.cell x) input).outcome =
      match c.action with
      | some p => (d.run s limit p input).outcome
      | none => .error (.fault .undefinedCell) := by
  have hcell : d.grammar.cells[x]? = some c.action := by
    rw [grammar_cells, hx, Option.map_some]
  simp only [run, Grammar.run, Parser.eval, Grammar.enter, hcell]
  cases c.action with
  | some p => rfl
  | none => rfl

/-- **The recursion protocol.**  After any sequence of calls, a parser is in one
of the three situations.  To run it is to run what is kept of it, and a fault as
long as there is nothing.  Whatever is called after that, it is left as it is,
or it was awaiting a target and has been tied.  It can be tied exactly if it is
awaiting a target, and a refused call leaves every parser as it was. -/
theorem recursion_protocol (hx : (afterAll {} calls).cells[x]? = some c) :
    Situation calls x c ∧
    (∀ s limit input,
      ((afterAll {} calls).run s (limit + 1) (.cell x) input).outcome =
        match c.action with
        | some p => ((afterAll {} calls).run s limit p input).outcome
        | none => .error (.fault .undefinedCell)) ∧
    (∀ later, ∃ c', (afterAll {} (calls ++ later)).cells[x]? = some c' ∧
      (c' = c ∨ c.status = .awaiting ∧ c'.status = .tied)) ∧
    ∀ target,
      (((afterAll {} calls).tie x target).2.outcome = .ok () ↔
        c.status = .awaiting) ∧
      ∀ stop, ((afterAll {} calls).tie x target).2.outcome = .error stop →
        (stop = .fault .notRecursive ∨ stop = .fault .alreadyDefined) ∧
          ((afterAll {} calls).tie x target).1 = afterAll {} calls := by
  refine ⟨situation_of_cells hx, outcome_run_cell hx, fun later => ?_,
    fun target => ⟨?_, fun stop hstop => ?_⟩⟩
  · rw [afterAll_append]
    exact ⟨_, cells_afterAll hx later, Cell.foldl_after_eq_or_tied later c⟩
  · rw [tie_outcome_eq_ok_iff, status_of_cells hx]
  · have hne : (afterAll {} calls).status x ≠ .awaiting := by
      intro h
      rw [tie_outcome_eq_ok_iff.mpr h] at hstop
      cases hstop
    obtain ⟨hsame, hfault⟩ := tie_of_status_ne_awaiting hne target
    rw [hstop] at hfault
    simpa [hsame] using hfault

/-- The calls that make a grammar of sums: parser 0 is a sum, and its terms, as
parser 1, are integers and sums in parentheses. -/
def sumCalls : List Call := [
  .declare,
  .declare,
  .make (Parser.sepBy1 (.char '+') (.cell 1)),
  .make ((Parser.between (.char '(') (.char ')') (.cell 0)).orElse
    (.integer none)),
  .tie 0 2,
  .tie 1 3]

/-- A sum is tied for good, while a term can still be tied before the last
call. -/
theorem sumCalls_protocol :
    Situation sumCalls 0 { action := some (.cell 2), status := .tied } ∧
    (∀ target, ((afterAll {} sumCalls).tie 0 target).2.outcome ≠ .ok ()) ∧
    ∀ target, ((afterAll {} sumCalls.dropLast).tie 1 target).2.outcome = .ok () := by
  have hsum : (afterAll {} sumCalls).cells[0]? =
      some { action := some (.cell 2), status := .tied } := rfl
  have hterm : (afterAll {} sumCalls.dropLast).cells[1]? =
      some { action := none, status := .awaiting } := rfl
  obtain ⟨hsituation, -, -, htie⟩ := recursion_protocol hsum
  obtain ⟨-, -, -, htie'⟩ := recursion_protocol hterm
  refine ⟨hsituation, fun target h => ?_, fun target => (htie' target).1.mpr rfl⟩
  cases (htie target).1.mp h

end Draft

end ParserAlgebra
