import ParserAlgebra.Proofs.Run.Simulation
/-!
# The outcome of a run

The outcome of a parser on a text, from the outcomes of its parts within the same limit.
There is one equation for each way to put parsers together, so that a proof about a
parser does not have to look into the run of it.
-/

namespace ParserAlgebra

namespace Grammar

variable {g : Grammar} {s : Settings} {limit : Nat} {p q : Parser} {input : Text}

theorem outcome_run_leaf (l : Leaf) :
    (g.run s limit (.leaf l) input).outcome = l.run input :=
  rfl

theorem outcome_run_map (f : Value → Except Fault Value) :
    (g.run s limit (p.map f) input).outcome =
      (g.run s limit p input).outcome.bind fun r => Outcome.ofExcept (r.map f) :=
  Run.outcome_bind (g.run s limit p input) _

theorem outcome_run_bind (f : Value → Parser) :
    (g.run s limit (p.bind f) input).outcome =
      (g.run s limit p input).outcome.bind fun r =>
        (r.onSuccess fun v rest => g.run s limit (f v) rest).outcome :=
  Run.outcome_bind (g.run s limit p input) _

theorem outcome_run_keepFirst :
    (g.run s limit (p.keepFirst q) input).outcome =
      (g.run s limit p input).outcome.bind fun r =>
        if r.isSuccess then
          (g.run s limit q r.rest).outcome.map fun r' =>
            if r'.isSuccess then r.withRest r'.rest else r'
        else .ok r := by
  have hrun : g.run s limit (p.keepFirst q) input = (do
      Run.emit (.entered (p.keepFirst q) input)
      let r ← g.run s limit p input
      if r.isSuccess then
        let r' ← g.run s limit q r.rest
        return if r'.isSuccess then r.withRest r'.rest else r'
      else return r) := rfl
  rw [hrun]
  simp only [Run.outcome_bind, Run.emit, Except.bind]
  cases (g.run s limit p input).outcome with
  | error stop => rfl
  | ok r =>
      simp only
      split
      · rw [Run.outcome_bind]
        cases (g.run s limit q r.rest).outcome with
        | error stop => rfl
        | ok r' => rfl
      · rfl

theorem outcome_run_many :
    (g.run s limit p.many input).outcome =
      (chain (g.run s limit p) input.length input).outcome.map fun (vs, rest) =>
        .success (.list vs) rest := by
  have hrun : g.run s limit p.many input = (do
      Run.emit (.entered p.many input)
      let (vs, rest) ← chain (g.run s limit p) input.length input
      return .success (.list vs) rest) := rfl
  rw [hrun]
  simp only [Run.outcome_bind, Run.emit, Except.bind]
  cases (chain (g.run s limit p) input.length input).outcome with
  | error stop => rfl
  | ok accepted => rfl

/-- A tied cell is its definition, with one level of nesting less. -/
theorem outcome_run_cell_of_tied {id : Nat} {definition : Parser}
    (hcell : g.cells[id]? = some (some definition)) :
    (g.run s (limit + 1) (.cell id) input).outcome =
      (g.run s limit definition input).outcome := by
  simp only [run, Parser.eval, enter, hcell]
  rfl

/-- Whether records are left has no part in it. -/
theorem outcome_run_label (text : Text) :
    (g.run s limit (p.label text) input).outcome =
      (g.run s limit p input).outcome.map fun r =>
        if r.isSuccess then r else .failure text input := by
  have hrun : g.run s limit (p.label text) input = (do
      Run.emit (.entered (p.label text) input)
      Parser.record s (.trying text)
      let r ← g.run s limit p input
      r.onFailure fun expected => do
        Parser.record s (.failed text expected (input.take 20))
        return .failure text input) := rfl
  rw [hrun]
  simp only [Run.outcome_bind, Run.emit, Parser.record_outcome, Except.bind]
  cases (g.run s limit p input).outcome with
  | error stop => rfl
  | ok r =>
      cases r with
      | success v rest => rfl
      | discarded rest => rfl
      | failure e t =>
          simp only [Reply.onFailure, Run.outcome_bind, Parser.record_outcome]
          rfl

theorem run_orElse_eq :
    g.run s limit (p.orElse q) input = (do
      Run.emit (.entered (p.orElse q) input)
      let r ← g.run s limit p input
      if r.isSuccess && !s.eagerChoice then return r
      else return r.alternative (← g.run s limit q input)) :=
  rfl

/-- The right side is asked for its reply after a failure, or if choice is eager. -/
theorem outcome_run_orElse :
    (g.run s limit (p.orElse q) input).outcome =
      (g.run s limit p input).outcome.bind fun r =>
        if r.isSuccess && !s.eagerChoice then .ok r
        else (g.run s limit q input).outcome.map r.alternative := by
  rw [run_orElse_eq]
  simp only [Run.outcome_bind, Run.emit, Except.bind]
  cases (g.run s limit p input).outcome with
  | error stop => rfl
  | ok r =>
      simp only
      split
      · rfl
      · rw [Run.outcome_bind]
        cases (g.run s limit q input).outcome with
        | error stop => rfl
        | ok r' => rfl

/-- After a success, the right side is asked for a reply and nothing else. -/
theorem outcome_run_orElse_of_success {v : Value} {rest : Text} {r : Reply}
    (hp : (g.run s limit p input).outcome = .ok (.success v rest))
    (hq : (g.run s limit q input).outcome = .ok r) :
    (g.run s limit (p.orElse q) input).outcome = .ok (.success v rest) := by
  rw [outcome_run_orElse, hp, hq]
  cases s.eagerChoice with
  | false => rfl
  | true => rfl

end Grammar

end ParserAlgebra
