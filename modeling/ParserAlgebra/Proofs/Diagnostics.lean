import Mathlib.Data.List.Forall2
import ParserAlgebra.Proofs.Reach
import ParserAlgebra.Proofs.Run.Simulation
/-!
# Diagnostics do not influence parsing

Labels are for the reader of an error.  Two grammars that differ in labels only
accept the same texts with the same outputs, reject the same texts, and stop for
the same reasons; what they say about a rejected text is all that differs.

* `Parser.Relabelled`: the trees differ in labels only.  A label may stand on
  either side alone, so labels may be added, dropped and reworded anywhere, and
  a sequence with its label may take the place of one without.
* `Reply.Agree`: two replies are the same, or both are failures.  No way to put
  parsers together asks a failure for more than that it is one, so this is a
  simulation, and outputs may be joined as well.
* `Parser.eval_agree` and `Grammar.run_agree`: related trees have agreeing runs,
  by induction on the relation and then on the limit.
* `Grammar.run_relabelled`: what this says about the outcomes.
-/

namespace ParserAlgebra

variable {s : Settings}

namespace Reply

/-- Two replies are the same but for what is said about a failure. -/
inductive Agree : Reply → Reply → Prop
  | same (r : Reply) : Agree r r
  | failures (e t e' t' : Text) : Agree (failure e t) (failure e' t')

variable {r r' u u' : Reply}

theorem Agree.symm (h : Agree r r') : Agree r' r := by
  cases h with
  | same r => exact .same r
  | failures e t e' t' => exact .failures e' t' e t

theorem agree_simulation : Simulation Agree where
  refl := .same
  accepted?_eq h := by cases h <;> rfl
  withRest h t := by
    cases h with
    | same r => exact .same _
    | failures e t e' t' => exact .failures _ _ _ _

theorem Agree.append (hu : Agree u u') (r : Reply)
    (concat : Value → Value → Except Fault Value) :
    Outcome.Related Agree (.ofExcept (r.append concat u))
      (.ofExcept (r.append concat u')) := by
  cases hu with
  | same u => exact Outcome.related_refl Agree.same _
  | failures e t e' t' =>
      cases r with
      | success v rest => exact .ok (.failures e t e' t')
      | discarded rest => exact .ok (.failures e t e' t')
      | failure e'' t'' => exact .ok (.same _)

end Reply

/-- Two leaves that differ in labels only.  A leaf with a function of its own
may be replaced by one that agrees with it on every text. -/
inductive Leaf.Relabelled : Leaf → Leaf → Prop
  | same (l : Leaf) : Leaf.Relabelled l l
  | fail (text text' : Text) : Leaf.Relabelled (.fail text) (.fail text')
  | satisfy (p : CodePoint → Bool) (text text' : Text) :
      Leaf.Relabelled (.satisfy p text) (.satisfy p text')
  | takeWhile1 (p : CodePoint → Bool) (text text' : Text) :
      Leaf.Relabelled (.takeWhile1 p text) (.takeWhile1 p text')
  | custom {f f' : Text → Outcome Reply}
      (h : ∀ input, Outcome.Related Reply.Agree (f input) (f' input)) :
      Leaf.Relabelled (.custom f) (.custom f')

theorem Leaf.run_agree {l l' : Leaf} (h : l.Relabelled l') (input : Text) :
    Outcome.Related Reply.Agree (l.run input) (l'.run input) := by
  cases h with
  | same l => exact Outcome.related_refl Reply.Agree.same _
  | fail text text' => exact .ok (.failures _ _ _ _)
  | satisfy p text text' =>
      cases input with
      | nil => exact .ok (.failures _ _ _ _)
      | cons c rest =>
          refine .ok ?_
          split
          · exact .same _
          · exact .failures _ _ _ _
  | takeWhile1 p text text' =>
      refine .ok ?_
      split
      · exact .failures _ _ _ _
      · exact .same _
  | custom h => exact h input

namespace Parser

/-- Two parsers that differ in labels only: the trees are the same but for the
labels of leaves, and for labels that stand in one of them alone. -/
inductive Relabelled : Parser → Parser → Prop
  | leaf {l l' : Leaf} (h : l.Relabelled l') : Relabelled (.leaf l) (.leaf l')
  | labelLeft {p q : Parser} (text : Text) (h : Relabelled p q) :
      Relabelled (.label text p) q
  | labelRight {p q : Parser} (text : Text) (h : Relabelled p q) :
      Relabelled p (.label text q)
  | map {p q : Parser} (f : Value → Except Fault Value) (h : Relabelled p q) :
      Relabelled (.map p f) (.map q f)
  | bind {p q : Parser} {f f' : Value → Parser} (h : Relabelled p q)
      (hf : ∀ v, Relabelled (f v) (f' v)) : Relabelled (.bind p f) (.bind q f')
  | orElse {p q p' q' : Parser} (hp : Relabelled p p') (hq : Relabelled q q') :
      Relabelled (.orElse p q) (.orElse p' q')
  | ignore {p q : Parser} (h : Relabelled p q) :
      Relabelled (.ignore p) (.ignore q)
  | keepFirst {p q p' q' : Parser} (hp : Relabelled p p')
      (hq : Relabelled q q') : Relabelled (.keepFirst p q) (.keepFirst p' q')
  | notFollowedBy {p q : Parser} (h : Relabelled p q) :
      Relabelled (.notFollowedBy p) (.notFollowedBy q)
  | append {p q p' q' : Parser} (concat : Value → Value → Except Fault Value)
      (hp : Relabelled p p') (hq : Relabelled q q') :
      Relabelled (.append p q concat) (.append p' q' concat)
  | many {p q : Parser} (h : Relabelled p q) : Relabelled (.many p) (.many q)
  | lookAhead {p q : Parser} (h : Relabelled p q) :
      Relabelled (.lookAhead p) (.lookAhead q)
  | probe {p q : Parser} (tag : Text) (h : Relabelled p q) :
      Relabelled (.probe tag p) (.probe tag q)
  | cell (id : Nat) : Relabelled (.cell id) (.cell id)

variable {enter enter' : Nat → Text → Run Reply} {p q : Parser}

theorem Relabelled.refl (p : Parser) : Relabelled p p := by
  induction p with
  | leaf l => exact .leaf (.same l)
  | map p f ih => exact .map f ih
  | bind p f ihp ihf => exact .bind ihp ihf
  | orElse p q ihp ihq => exact .orElse ihp ihq
  | label text p ih => exact .labelLeft text (.labelRight text ih)
  | ignore p ih => exact .ignore ih
  | keepFirst p q ihp ihq => exact .keepFirst ihp ihq
  | notFollowedBy p ih => exact .notFollowedBy ih
  | append p q concat ihp ihq => exact .append concat ihp ihq
  | many p ih => exact .many ih
  | lookAhead p ih => exact .lookAhead ih
  | probe tag p ih => exact .probe tag ih
  | cell id => exact .cell id

/-- The label of a sequence is a label like any other. -/
theorem Relabelled.keepSecond_andThen {p q p' q' : Parser}
    (hp : Relabelled p p') (hq : Relabelled q q') :
    Relabelled (p.keepSecond q) (p'.andThen q') :=
  .labelRight _ (.bind hp fun _ => hq)

/-- A label changes nothing but what is said about a failure. -/
theorem label_agree
    {input : Text} {y : Run Reply}
    (h : Run.Related Reply.Agree (p.eval s enter input) y)
    (text : Text) :
    Run.Related Reply.Agree ((label text p).eval s enter input) y := by
  simp only [eval]
  refine Run.related_bind_left rfl (Run.related_bind_left (record_outcome _) ?_)
  refine Run.related_bind_pure h fun r r' hr => ?_
  cases hr with
  | same r =>
      cases r with
      | success v rest => exact Run.related_pure (.same _)
      | discarded rest => exact Run.related_pure (.same _)
      | failure e t =>
          refine Run.related_bind_left (record_outcome _) ?_
          exact Run.related_pure (.failures _ _ _ _)
  | failures e t e' t' =>
      refine Run.related_bind_left (record_outcome _) ?_
      exact Run.related_pure (.failures _ _ _ _)

/-- **Agreement of evaluation.**  Parsers that differ in labels only have
agreeing runs, if their cells have. -/
theorem eval_agree
    (henter : ∀ id input,
      Run.Related Reply.Agree (enter id input) (enter' id input))
    (h : Relabelled p q) (input : Text) :
    Run.Related Reply.Agree (p.eval s enter input) (q.eval s enter' input) := by
  have hS := Reply.agree_simulation
  induction h generalizing input with
  | leaf hl => exact Run.related_emit_bind (Leaf.run_agree hl input)
  | labelLeft text _ ih => exact label_agree (ih input) text
  | labelRight text _ ih =>
      have hsymm := (ih input).symm fun _ _ => Reply.Agree.symm
      exact (label_agree hsymm text).symm fun _ _ => Reply.Agree.symm
  | map f _ ih => exact hS.map (ih input) f
  | bind _ _ ihp ihf => exact hS.bind (ihp input) ihf
  | orElse _ _ ihp ihq => exact hS.orElse (ihp input) (ihq input)
  | ignore _ ih => exact hS.ignore (ih input)
  | keepFirst _ _ ihp ihq => exact hS.keepFirst (ihp input) ihq
  | notFollowedBy _ ih => exact hS.notFollowedBy (ih input)
  | append concat _ _ ihp ihq =>
      refine Run.related_emit_bind
        (Run.related_bind (ihp input) fun r r' hr => ?_)
      cases hr with
      | same r =>
          by_cases hsucc : r.isSuccess
          · simp only [if_pos hsucc]
            refine Run.related_bind (ihq r.rest) fun u u' hu => ?_
            exact hu.append r concat
          · simp only [if_neg hsucc]
            exact Run.related_pure (.same r)
      | failures e t e' t' => exact Run.related_pure (.failures e t e' t')
  | many _ ih => exact hS.many ih
  | lookAhead _ ih => exact hS.lookAhead (ih input)
  | probe tag _ ih =>
      exact Run.related_emit_bind (Run.related_emit_bind (ih input))
  | cell id => exact Run.related_emit_bind (henter id input)

end Parser

namespace Grammar

variable {g h : Grammar} {p q : Parser}

/-- Two grammars that differ in labels only: each cell is without a definition
in both, or has definitions that differ in labels only. -/
def Relabelled (g h : Grammar) : Prop :=
  List.Forall₂ (Option.Rel Parser.Relabelled) g.cells h.cells

/-- What the two grammars have for a cell. -/
theorem Relabelled.cells (hgh : g.Relabelled h) (id : Nat) :
    Option.Rel (Option.Rel Parser.Relabelled) g.cells[id]? h.cells[id]? := by
  unfold Relabelled at hgh
  generalize g.cells = as, h.cells = bs at hgh
  induction hgh generalizing id with
  | nil => exact .none
  | cons hab _ ih =>
      cases id with
      | zero => exact .some hab
      | succ id => exact ih id

/-- Runs of parsers and grammars that differ in labels only agree at every
limit. -/
theorem run_agree (hgh : g.Relabelled h) (hpq : p.Relabelled q) (limit : Nat)
    (input : Text) :
    Run.Related Reply.Agree (g.run s limit p input) (h.run s limit q input) := by
  refine run_related (C := fun _ => True) (fun henter _ _ => ?_)
    (fun id _ => hgh.cells id) hpq limit input
  exact Parser.eval_agree fun id => henter id trivial

/-- **Diagnostics do not influence parsing.**  Parsers and grammars that differ
in labels only succeed on the same texts with the same replies, fail on the same
texts, with whatever label and rest, and stop for the same reasons. -/
theorem run_relabelled
    (hgh : g.Relabelled h) (hpq : p.Relabelled q)
    (s : Settings) (limit : Nat) (input : Text) :
    (∀ r, r.isSuccess →
      ((g.run s limit p input).outcome = .ok r ↔
        (h.run s limit q input).outcome = .ok r)) ∧
    ((∃ e t, (g.run s limit p input).outcome = .ok (.failure e t)) ↔
      ∃ e t, (h.run s limit q input).outcome = .ok (.failure e t)) ∧
    ∀ stop, (g.run s limit p input).outcome = .error stop ↔
      (h.run s limit q input).outcome = .error stop := by
  have hagree := run_agree (s := s) hgh hpq limit input
  unfold Run.Related at hagree
  generalize (g.run s limit p input).outcome = x at hagree ⊢
  generalize (h.run s limit q input).outcome = y at hagree ⊢
  cases hagree with
  | error stop => simp
  | ok hr =>
      cases hr with
      | same r => simp
      | failures e t e' t' =>
          refine ⟨fun r hsucc => ?_, by simp, by simp⟩
          constructor
          · rintro ⟨⟩
            cases hsucc
          · rintro ⟨⟩
            cases hsucc

/-- Sums in which a term has a label of its own, and a sequence with its label
stands in the parentheses. -/
def labelledSums : Grammar where
  cells := [
    some (Parser.sepBy1 (.char '+') ((Parser.cell 1).label "term")),
    some ((((Parser.char '(').andThen (.cell 0)).keepFirst (.char ')')).orElse
      (.integer none))]

/-- Where the parenthesis is missing, the two grammars for sums name different
things at different places; where it is there, they read the same. -/
theorem sums_relabelled :
    sums.Relabelled labelledSums ∧
    (sums.run {} 4 (.cell 0) "(7").outcome = .ok (.failure "char())" []) ∧
    (labelledSums.run {} 4 (.cell 0) "(7").outcome =
      .ok (.failure "term" "(7") ∧
    (labelledSums.run {} 4 (.cell 0) "(7)").outcome =
      .ok (.success (.list [.list [.int 7]]) []) := by
  have hterm : Parser.Relabelled (.cell 1) ((Parser.cell 1).label "term") :=
    .labelRight _ (.cell 1)
  have hsum : Parser.Relabelled (Parser.sepBy1 (.char '+') (.cell 1))
      (Parser.sepBy1 (.char '+') ((Parser.cell 1).label "term")) :=
    .bind hterm fun _ => .map _ (.many (.bind (.refl _) fun _ => hterm))
  have hinner : Parser.Relabelled ((Parser.char '(').keepSecond (.cell 0))
      ((Parser.char '(').andThen (.cell 0)) :=
    .keepSecond_andThen (.refl _) (.cell 0)
  have hsums : sums.Relabelled labelledSums :=
    .cons (.some hsum)
      (.cons (.some (.orElse (.keepFirst hinner (.refl _)) (.refl _))) .nil)
  have hread := (run_relabelled hsums (.cell 0) {} 4 "(7)").1
    (.success (.list [.list [.int 7]]) []) rfl
  exact ⟨hsums, rfl, rfl, hread.mp rfl⟩

end Grammar

end ParserAlgebra
