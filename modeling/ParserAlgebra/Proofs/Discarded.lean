import Mathlib.Data.List.Forall2
import ParserAlgebra.Parser.Sequence
import ParserAlgebra.Proofs.Run.Simulation
/-!
# Discarded outputs in control flow

A success whose output was thrown away is told from one with the output
`nothing` only where outputs are joined.  Everywhere else it makes no difference
whether an output is thrown away or kept as `nothing`: the same texts are
accepted, and with the same outputs, the same failures are reported, and the
runs stop for the same reasons.

* `Reply.Retagged`: two replies are the same, or the second has the output
  `nothing` where the first has none.  This is a simulation.
* `Parser.Retagged`: the trees are the same, but that the second may keep
  `nothing` where the first throws an output away.  No outputs are joined in
  them.
* `Parser.eval_retagged`: related trees have related runs, by induction on the
  relation.
* `Grammar.run_retagged`: what this says about the outcomes.
-/

namespace ParserAlgebra

variable {s : Settings}

namespace Reply

/-- The second reply is the first, or has the output `nothing` where the first
has none. -/
inductive Retagged : Reply → Reply → Prop
  | same (r : Reply) : Retagged r r
  | nothing (rest : Text) : Retagged (discarded rest) (success .nothing rest)

theorem retagged_simulation : Simulation Retagged where
  refl := .same
  accepted?_eq h := by cases h <;> rfl
  withRest h t := by
    cases h with
    | same r => exact .same _
    | nothing rest => exact .nothing t

end Reply

namespace Parser

/-- Two parsers that differ only in that the second keeps `nothing` where the
first throws an output away, with references to these cells.  Neither joins
outputs. -/
inductive Retagged (C : Nat → Prop) : Parser → Parser → Prop
  | ignore_map {p q : Parser} (h : Retagged C p q) :
      Retagged C (.ignore p) (.map q fun _ => .ok .nothing)
  | succeed_pure : Retagged C .succeed (.pure .nothing)
  | leaf (l : Leaf) : Retagged C (.leaf l) (.leaf l)
  | map {p q : Parser} (f : Value → Except Fault Value) (h : Retagged C p q) :
      Retagged C (.map p f) (.map q f)
  | bind {p q : Parser} {f f' : Value → Parser} (h : Retagged C p q)
      (hf : ∀ v, Retagged C (f v) (f' v)) : Retagged C (.bind p f) (.bind q f')
  | orElse {p q p' q' : Parser} (hp : Retagged C p p') (hq : Retagged C q q') :
      Retagged C (.orElse p q) (.orElse p' q')
  | label {p q : Parser} (text : Text) (h : Retagged C p q) :
      Retagged C (.label text p) (.label text q)
  | ignore {p q : Parser} (h : Retagged C p q) :
      Retagged C (.ignore p) (.ignore q)
  | keepFirst {p q p' q' : Parser} (hp : Retagged C p p')
      (hq : Retagged C q q') : Retagged C (.keepFirst p q) (.keepFirst p' q')
  | notFollowedBy {p q : Parser} (h : Retagged C p q) :
      Retagged C (.notFollowedBy p) (.notFollowedBy q)
  | many {p q : Parser} (h : Retagged C p q) : Retagged C (.many p) (.many q)
  | lookAhead {p q : Parser} (h : Retagged C p q) :
      Retagged C (.lookAhead p) (.lookAhead q)
  | probe {p q : Parser} (tag : Text) (h : Retagged C p q) :
      Retagged C (.probe tag p) (.probe tag q)
  | cell {id : Nat} (h : C id) : Retagged C (.cell id) (.cell id)

variable {C : Nat → Prop} {enter enter' : Nat → Text → Run Reply} {p q : Parser}

/-- A list of outputs has `nothing` for an output that was thrown away. -/
theorem Retagged.collect {ps qs : List Parser}
    (h : List.Forall₂ (Retagged C) ps qs) :
    Retagged C (.collect ps) (.collect qs) := by
  induction h with
  | nil => exact .leaf _
  | cons hp _ ih => exact .bind hp fun v => .map v.cons ih

/-- Throwing the output away and making it `nothing` differ in the tag of a
success. -/
theorem ignore_map_related {input : Text}
    (h : Run.Related Reply.Retagged (p.eval s enter input)
      (q.eval s enter' input)) :
    Run.Related Reply.Retagged (p.ignore.eval s enter input)
      ((q.map fun _ => .ok .nothing).eval s enter' input) := by
  refine Run.related_emit_bind (Run.related_bind h fun r r' hr => ?_)
  obtain ⟨v, rest, ha, ha'⟩ | ⟨e, t, e', t', rfl, rfl⟩ :=
    Reply.retagged_simulation.cases hr
  · rw [Reply.ignore_of_accepted? ha, Reply.map_of_accepted? ha']
    exact Run.related_pure (.nothing rest)
  · exact Run.related_pure hr

/-- **Discarded outputs in evaluation.**  The runs of parsers that differ in
discarded outputs only have replies that differ in the tag only, if their cells
have. -/
theorem eval_retagged
    (henter : ∀ id, C id → ∀ t,
      Run.Related Reply.Retagged (enter id t) (enter' id t))
    (h : Retagged C p q) (input : Text) :
    Run.Related Reply.Retagged (p.eval s enter input) (q.eval s enter' input) := by
  have hS := Reply.retagged_simulation
  induction h generalizing input with
  | ignore_map _ ih => exact ignore_map_related (ih input)
  | succeed_pure => exact Run.related_emit_bind (Run.related_pure (.nothing input))
  | leaf l => exact Run.related_emit_bind (Outcome.related_refl hS.refl _)
  | map f _ ih => exact hS.map (ih input) f
  | bind _ _ ihp ihf => exact hS.bind (ihp input) ihf
  | orElse _ _ ihp ihq => exact hS.orElse (ihp input) (ihq input)
  | label text _ ih => exact hS.label (ih input) text
  | ignore _ ih => exact hS.ignore (ih input)
  | keepFirst _ _ ihp ihq => exact hS.keepFirst (ihp input) ihq
  | notFollowedBy _ ih => exact hS.notFollowedBy (ih input)
  | many _ ih => exact hS.many ih
  | lookAhead _ ih => exact hS.lookAhead (ih input)
  | probe tag _ ih => exact Run.related_emit_bind (Run.related_emit_bind (ih input))
  | cell hid => exact Run.related_emit_bind (henter _ hid input)

end Parser

namespace Grammar

variable {g h : Grammar} {p q : Parser} {C : Nat → Prop}

/-- **Discarded outputs do not influence control flow.**  Let two parsers, and
the definitions of the cells that they lead to, differ only in that the second
keep `nothing` where the first throw an output away.  Then the two accept the
same texts, with the same output and rest, report the same failures, and stop for
the same reasons. -/
theorem run_retagged
    (hcells : ∀ id, C id →
      Option.Rel (Option.Rel (Parser.Retagged C)) g.cells[id]? h.cells[id]?)
    (hpq : p.Retagged C q) (s : Settings) (limit : Nat) (input : Text) :
    (∀ v rest,
      (∃ r, (g.run s limit p input).outcome = .ok r ∧
        r.accepted? = some (v, rest)) ↔
      ∃ r, (h.run s limit q input).outcome = .ok r ∧
        r.accepted? = some (v, rest)) ∧
    (∀ expected rest,
      (g.run s limit p input).outcome = .ok (.failure expected rest) ↔
        (h.run s limit q input).outcome = .ok (.failure expected rest)) ∧
    ∀ stop, (g.run s limit p input).outcome = .error stop ↔
      (h.run s limit q input).outcome = .error stop := by
  have hrelated := run_related (s := s)
    (fun henter _ _ => Parser.eval_retagged henter) hcells hpq limit input
  unfold Run.Related at hrelated
  generalize (g.run s limit p input).outcome = x at hrelated ⊢
  generalize (h.run s limit q input).outcome = y at hrelated ⊢
  cases hrelated with
  | error stop => simp
  | ok hr =>
      cases hr with
      | same r => simp
      | nothing rest => simp [Reply.accepted?]

/-- Nested parentheses, of which those that were read are thrown away. -/
def brackets : Grammar where
  cells := [some ((Parser.collect
    [(Parser.char '(').ignore, .cell 0, (Parser.char ')').ignore]).orElse .succeed)]

/-- Nested parentheses, of which those that were read are kept as `nothing`. -/
def blankBrackets : Grammar where
  cells := [some ((Parser.collect
    [(Parser.char '(').map fun _ => .ok .nothing, .cell 0,
      (Parser.char ')').map fun _ => .ok .nothing]).orElse (.pure .nothing))]

/-- The lists of outputs are the same; where there are no parentheses, the
replies differ in the tag. -/
theorem brackets_retagged :
    (brackets.run {} 3 (.cell 0) "(())x").outcome =
      .ok (.success (.list [.nothing,
        .list [.nothing, .nothing, .nothing], .nothing]) "x") ∧
    (∃ r, (blankBrackets.run {} 3 (.cell 0) "(())x").outcome = .ok r ∧
      r.accepted? = some (Value.list [.nothing,
        .list [.nothing, .nothing, .nothing], .nothing], Text.ofString "x")) ∧
    (brackets.run {} 3 (.cell 0) "x").outcome = .ok (.discarded "x") ∧
    (blankBrackets.run {} 3 (.cell 0) "x").outcome =
      .ok (.success .nothing "x") := by
  have hcells : ∀ id, id = 0 →
      Option.Rel (Option.Rel (Parser.Retagged fun id => id = 0))
        brackets.cells[id]? blankBrackets.cells[id]? := by
    rintro _ rfl
    refine .some (.some (.orElse (.collect ?_) .succeed_pure))
    exact .cons (.ignore_map (.leaf _)) (.cons (.cell rfl)
      (.cons (.ignore_map (.leaf _)) .nil))
  have hread := (run_retagged hcells (.cell rfl) {} 3 "(())x").1
  exact ⟨rfl, (hread _ _).mp ⟨_, rfl, rfl⟩, rfl, rfl⟩

end Grammar

end ParserAlgebra
