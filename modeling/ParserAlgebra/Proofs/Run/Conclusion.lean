import ParserAlgebra.Parser.Sequence
import ParserAlgebra.Proofs.Run.Limit
import ParserAlgebra.Proofs.Run.Outcome
/-!
# What runs conclude with

What a parser concludes with follows from what its parts conclude with, and neither the
limit on nesting nor the events have to be mentioned: there are finitely many parts, so
one limit is enough for all of them.

* `concludes_map`, `concludes_bind_of_accepted?`, `concludes_bind_of_failure`: the rules
  for the ways to go on after a reply.
* `returns_keepSecond`, `concludes_keepFirst` and their like: the rules for a sequence of
  two parsers with the output of one of them.
* `concludes_prepend` and its like: the rules for a sequence with a list of outputs.
* `concludes_label`, `concludes_andThen`: the rules for a label and what stands under it.
* `concludes_orElse` and its like: the rules for a choice, which are the same for both of
  its modes.
* `concludes_cell`: a cell concludes with what its definition does.
-/

namespace ParserAlgebra

namespace Grammar

variable {g : Grammar} {s : Settings} {p q : Parser} {input rest last e t : Text}
variable {r : Reply} {v : Value} {vs : List Value} {o : Outcome Reply} {stop : Stop}

theorem concludes_leaf {l : Leaf} (h : l.run input = o) : g.Concludes s (.leaf l) input o := by
  refine ⟨0, fun limit _ => ?_⟩
  rw [outcome_run_leaf, h]

theorem concludes_map (hp : g.Concludes s p input (.ok r)) (f : Value → Except Fault Value) :
    g.Concludes s (p.map f) input (.ofExcept (r.map f)) := by
  obtain ⟨enough, hp⟩ := hp
  refine ⟨enough, fun limit hle => ?_⟩
  rw [outcome_run_map, hp limit hle]
  rfl

theorem concludes_bind_of_accepted? {f : Value → Parser}
    (hp : g.Concludes s p input (.ok r)) (haccept : r.accepted? = some (v, rest))
    (hf : g.Concludes s (f v) rest o) : g.Concludes s (p.bind f) input o := by
  obtain ⟨enough, hp⟩ := hp
  obtain ⟨enough', hf⟩ := hf
  refine ⟨max enough enough', fun limit hle => ?_⟩
  rw [outcome_run_bind, hp limit (by omega)]
  simp only [Except.bind, Reply.onSuccess_of_accepted? haccept]
  exact hf limit (by omega)

theorem concludes_bind_of_failure {f : Value → Parser}
    (hp : g.Concludes s p input (.ok (.failure e t))) :
    g.Concludes s (p.bind f) input (.ok (.failure e t)) := by
  obtain ⟨enough, hp⟩ := hp
  refine ⟨enough, fun limit hle => ?_⟩
  rw [outcome_run_bind, hp limit hle]
  rfl

theorem concludes_map_of_error (hp : g.Concludes s p input (.error stop))
    (f : Value → Except Fault Value) : g.Concludes s (p.map f) input (.error stop) := by
  obtain ⟨enough, hp⟩ := hp
  refine ⟨enough, fun limit hle => ?_⟩
  rw [outcome_run_map, hp limit hle]
  rfl

theorem concludes_bind_of_error {f : Value → Parser}
    (hp : g.Concludes s p input (.error stop)) :
    g.Concludes s (p.bind f) input (.error stop) := by
  obtain ⟨enough, hp⟩ := hp
  refine ⟨enough, fun limit hle => ?_⟩
  rw [outcome_run_bind, hp limit hle]
  rfl

theorem returns_keepSecond {r' : Reply} (hp : g.Returns s p input r)
    (haccept : r.accepted? = some (v, rest)) (hq : g.Returns s q rest r') :
    g.Returns s (p.keepSecond q) input r' :=
  concludes_ok_iff.mp
    (concludes_bind_of_accepted? (concludes_ok_iff.mpr hp) haccept (concludes_ok_iff.mpr hq))

theorem returns_keepSecond_of_failure (hp : g.Returns s p input (.failure e t)) :
    g.Returns s (p.keepSecond q) input (.failure e t) :=
  concludes_ok_iff.mp (concludes_bind_of_failure (concludes_ok_iff.mpr hp))

/-- An output is put in front of the list of the others. -/
theorem concludes_prepend (hp : g.Concludes s p input (.ok r))
    (haccept : r.accepted? = some (v, rest))
    (hq : g.Concludes s q rest (.ok (.success (.list vs) last))) :
    g.Concludes s (p.prepend q) input (.ok (.success (.list (v :: vs)) last)) :=
  concludes_bind_of_accepted? hp haccept (concludes_map hq v.cons)

theorem concludes_prepend_of_failure (hp : g.Concludes s p input (.ok (.failure e t))) :
    g.Concludes s (p.prepend q) input (.ok (.failure e t)) :=
  concludes_bind_of_failure hp

theorem concludes_prepend_of_failure_right (hp : g.Concludes s p input (.ok r))
    (haccept : r.accepted? = some (v, rest))
    (hq : g.Concludes s q rest (.ok (.failure e t))) :
    g.Concludes s (p.prepend q) input (.ok (.failure e t)) :=
  concludes_bind_of_accepted? hp haccept (concludes_map hq v.cons)

theorem concludes_prepend_of_error (hp : g.Concludes s p input (.error stop)) :
    g.Concludes s (p.prepend q) input (.error stop) :=
  concludes_bind_of_error hp

theorem concludes_prepend_of_error_right (hp : g.Concludes s p input (.ok r))
    (haccept : r.accepted? = some (v, rest))
    (hq : g.Concludes s q rest (.error stop)) :
    g.Concludes s (p.prepend q) input (.error stop) :=
  concludes_bind_of_accepted? hp haccept (concludes_map_of_error hq v.cons)

/-- The output is that of the first parser, and the rest that of the second. -/
theorem concludes_keepFirst {r' : Reply} (hp : g.Concludes s p input (.ok r))
    (hr : r.isSuccess) (hq : g.Concludes s q r.rest (.ok r')) (hr' : r'.isSuccess) :
    g.Concludes s (p.keepFirst q) input (.ok (r.withRest r'.rest)) := by
  obtain ⟨enough, hp⟩ := hp
  obtain ⟨enough', hq⟩ := hq
  refine ⟨max enough enough', fun limit hle => ?_⟩
  rw [outcome_run_keepFirst, hp limit (by omega)]
  simp only [Except.bind, if_pos hr, hq limit (by omega), Except.map, if_pos hr']

theorem concludes_keepFirst_of_failure (hp : g.Concludes s p input (.ok (.failure e t))) :
    g.Concludes s (p.keepFirst q) input (.ok (.failure e t)) := by
  obtain ⟨enough, hp⟩ := hp
  refine ⟨enough, fun limit hle => ?_⟩
  rw [outcome_run_keepFirst, hp limit hle]
  rfl

/-- What comes after a success may fail. -/
theorem concludes_keepFirst_of_failure_right (hp : g.Concludes s p input (.ok r))
    (hr : r.isSuccess) (hq : g.Concludes s q r.rest (.ok (.failure e t))) :
    g.Concludes s (p.keepFirst q) input (.ok (.failure e t)) := by
  obtain ⟨enough, hp⟩ := hp
  obtain ⟨enough', hq⟩ := hq
  refine ⟨max enough enough', fun limit hle => ?_⟩
  rw [outcome_run_keepFirst, hp limit (by omega)]
  simp only [Except.bind, if_pos hr, hq limit (by omega)]
  rfl

theorem concludes_label (hp : g.Concludes s p input (.ok r)) (text : Text) :
    g.Concludes s (p.label text) input
      (.ok (if r.isSuccess then r else .failure text input)) := by
  obtain ⟨enough, hp⟩ := hp
  refine ⟨enough, fun limit hle => ?_⟩
  rw [outcome_run_label, hp limit hle]
  rfl

/-- A sequence begins where its first parser does, and so does its failure. -/
theorem concludes_andThen {r' : Reply} (hp : g.Concludes s p input (.ok r))
    (haccept : r.accepted? = some (v, rest)) (hq : g.Concludes s q rest (.ok r')) :
    g.Concludes s (p.andThen q) input
      (.ok (if r'.isSuccess then r' else .failure Parser.sequenceLabel input)) :=
  concludes_label (concludes_bind_of_accepted? hp haccept hq) Parser.sequenceLabel

theorem concludes_andThen_of_failure (hp : g.Concludes s p input (.ok (.failure e t))) :
    g.Concludes s (p.andThen q) input (.ok (.failure Parser.sequenceLabel input)) :=
  concludes_label (concludes_bind_of_failure hp) Parser.sequenceLabel

/-- Where both sides give a reply, so does the choice, in both of its modes. -/
theorem concludes_orElse {r' : Reply} (hp : g.Concludes s p input (.ok r))
    (hq : g.Concludes s q input (.ok r')) :
    g.Concludes s (p.orElse q) input (.ok (r.alternative r')) := by
  obtain ⟨enough, hp⟩ := hp
  obtain ⟨enough', hq⟩ := hq
  refine ⟨max enough enough', fun limit hle => ?_⟩
  rw [outcome_run_orElse, hp limit (by omega), hq limit (by omega)]
  simp only [Except.bind, Except.map]
  split
  · next h =>
      rw [Bool.and_eq_true] at h
      rw [Reply.alternative_of_isSuccess h.1]
  · rfl

/-- A success on the left is kept, if the right side gives any reply. -/
theorem concludes_orElse_of_success {r' : Reply} (hp : g.Concludes s p input (.ok r))
    (hr : r.isSuccess) (hq : g.Concludes s q input (.ok r')) :
    g.Concludes s (p.orElse q) input (.ok r) := by
  have h := concludes_orElse hp hq
  rwa [Reply.alternative_of_isSuccess hr] at h

/-- After a failure on the left, a success on the right is taken. -/
theorem concludes_orElse_of_failure (hp : g.Concludes s p input (.ok (.failure e t)))
    (hq : g.Concludes s q input (.ok r)) (hr : r.isSuccess) :
    g.Concludes s (p.orElse q) input (.ok r) := by
  have h := concludes_orElse hp hq
  rwa [Reply.alternative, if_pos hr] at h

/-- After failures on both sides, the one on the left is kept. -/
theorem concludes_orElse_of_failures {e' t' : Text}
    (hp : g.Concludes s p input (.ok (.failure e t)))
    (hq : g.Concludes s q input (.ok (.failure e' t'))) :
    g.Concludes s (p.orElse q) input (.ok (.failure e t)) :=
  concludes_orElse hp hq

theorem concludes_orElse_of_error (hp : g.Concludes s p input (.error stop)) :
    g.Concludes s (p.orElse q) input (.error stop) := by
  obtain ⟨enough, hp⟩ := hp
  refine ⟨enough, fun limit hle => ?_⟩
  rw [outcome_run_orElse, hp limit hle]
  rfl

/-- The definition of a cell has one level of nesting less. -/
theorem concludes_cell {id : Nat} {definition : Parser}
    (hcell : g.cells[id]? = some (some definition))
    (h : g.Concludes s definition input o) : g.Concludes s (.cell id) input o := by
  obtain ⟨enough, h⟩ := h
  refine ⟨enough + 1, fun limit hle => ?_⟩
  obtain ⟨limit, rfl⟩ := Nat.exists_eq_add_of_le' hle
  exact (outcome_run_cell_of_tied hcell).trans (h _ (Nat.le_add_left enough limit))

end Grammar

end ParserAlgebra
