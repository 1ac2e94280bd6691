import ParserAlgebra.Proofs.Reach
import ParserAlgebra.Proofs.Run.Rules
/-!
# Where faults come from

A run that stops with a fault stops because of something that was put into the
grammar.  There are three origins of a fault, and every fault of a run has one of
them (`Grammar.fault_origin`):

* a function answered with it, which was given to the parser or to the definition
  of a cell that the parser reaches (`Grammar.Raises`);
* a cell was run that the parser reaches and that has no definition;
* a decimal numeral in the text was longer than the library converts.

So ways of putting parsers together add no fault of their own, and neither does
any leaf, apart from integers.
-/

namespace ParserAlgebra

namespace Run

variable {α β : Type} {x : Run α} {f : α → Run β} {P : Fault → Prop}

/-- Every fault with which the run stops has the property. -/
def Faults (x : Run α) (P : Fault → Prop) : Prop :=
  ∀ cause, x.outcome = .error (.fault cause) → P cause

theorem faults_of_ok {a : α} (h : x.outcome = .ok a) : x.Faults P := by
  intro cause hcause
  cases h.symm.trans hcause

theorem faults_pure (a : α) : (pure a : Run α).Faults P := faults_of_ok rfl

theorem faults_bind (hx : x.Faults P) (hf : ∀ a, (f a).Faults P) :
    (x >>= f).Faults P := by
  intro cause hcause
  rw [outcome_bind] at hcause
  cases ha : x.outcome with
  | ok a =>
      rw [ha] at hcause
      exact hf a cause hcause
  | error stop =>
      rw [ha] at hcause
      cases hcause
      exact hx cause ha

theorem faults_emit_bind {e : Event} {f : Unit → Run β} (hf : (f ()).Faults P) :
    (emit e >>= f).Faults P :=
  faults_bind (faults_of_ok rfl) fun _ => hf

theorem faults_ofExcept {y : Except Fault α}
    (h : ∀ cause, y = .error cause → P cause) : (ofExcept y).Faults P := by
  intro cause hcause
  cases y with
  | ok a => cases hcause
  | error cause' =>
      cases hcause
      exact h cause rfl

end Run

/-- The faults of a repetition are those of its steps. -/
theorem chain_faults {P : Fault → Prop} {step : Text → Run Reply}
    (h : ∀ t, (step t).Faults P) (bound : Nat) (input : Text) :
    (chain step bound input).Faults P := by
  induction bound generalizing input with
  | zero => exact Run.faults_bind (h input) fun _ => Run.faults_pure _
  | succ bound ih =>
      refine Run.faults_bind (h input) fun r => ?_
      split
      · split
        · exact Run.faults_bind (ih _) fun _ => Run.faults_pure _
        · exact Run.faults_pure _
      · exact Run.faults_pure _

namespace Reply

theorem eq_error_of_bind_pure {α β : Type} {x : Except Fault α} {f : α → β}
    {cause : Fault} (h : (do return f (← x)) = .error cause) :
    x = .error cause := by
  cases x with
  | ok a => cases h
  | error cause' =>
      cases h
      rfl

/-- Applying a function to a reply can only give a fault of the function. -/
theorem exists_of_map_eq_error {f : Value → Except Fault Value} {r : Reply}
    {cause : Fault} (h : r.map f = .error cause) : ∃ v, f v = .error cause := by
  cases r with
  | success v rest => exact ⟨v, eq_error_of_bind_pure h⟩
  | discarded rest => exact ⟨.nothing, eq_error_of_bind_pure h⟩
  | failure expected rest => cases h

/-- Joining two replies can only give a fault of the function that joins their
outputs. -/
theorem exists_of_append_eq_error {concat : Value → Value → Except Fault Value}
    {r s : Reply} {cause : Fault} (h : r.append concat s = .error cause) :
    ∃ v w, concat v w = .error cause := by
  cases r with
  | success v rest =>
      cases s with
      | success w rest' => exact ⟨v, w, eq_error_of_bind_pure h⟩
      | discarded rest' => cases h
      | failure expected rest' => cases h
  | discarded rest => cases h
  | failure expected rest => cases h

end Reply

namespace Integer

/-- The one fault of an integer is that of a numeral that is too long. -/
theorem fault_of_ofDigits {negative : Bool} {radix : Radix} {text : Text}
    {failure : Reply} {cause : Fault}
    (h : ofDigits negative radix text failure = .error cause) :
    cause = .numeralTooLong := by
  unfold ofDigits at h
  split at h
  · cases h
  · have hread := Reply.eq_error_of_bind_pure h
    unfold Numeral.read at hread
    split at hread
    · exact (Except.error.inj hread).symm
    · cases hread

theorem fault_of_parse {radix : Option Radix} {input : Text} {cause : Fault}
    (h : parse radix input = .error cause) : cause = .numeralTooLong := by
  unfold parse at h
  simp only at h
  split at h
  · exact fault_of_ofDigits h
  · split at h
    · exact fault_of_ofDigits h
    · exact fault_of_ofDigits h

end Integer

namespace Quotation

theorem scan_ne_fault (q : Quotation) (closing : Text) (bound : Nat)
    (text : Text) (cause : Fault) :
    q.scan closing bound text ≠ .error (.fault cause) := by
  induction bound generalizing text with
  | zero => simp [scan]
  | succ bound ih =>
      simp only [scan]
      split
      · next meaning rest _ =>
        cases hscan : q.scan closing bound rest with
        | ok c => simp [Except.map]
        | error stop =>
            have hne := ih rest
            rw [hscan] at hne
            simpa [Except.map] using hne
      · simp
      · simp

/-- A quoted string is read without faults. -/
theorem parse_ne_fault (q : Quotation) (input : Text) (cause : Fault) :
    q.parse input ≠ .error (.fault cause) := by
  unfold parse
  split
  · next closing rest _ =>
    have hne := q.scan_ne_fault closing (rest.length + 1) rest cause
    cases hscan : q.scan closing (rest.length + 1) rest with
    | ok c => simp [Except.map]
    | error stop =>
        rw [hscan] at hne
        simpa [Except.map] using hne
  · simp

end Quotation

namespace Leaf

/-- A function that was given to the leaf can answer with the fault. -/
def Raises : Leaf → Fault → Prop
  | raise cause, cause' => cause = cause'
  | custom f, cause => ∃ input, f input = .error (.fault cause)
  | _, _ => False

/-- The faults of a leaf are those that were put into it, and that of an integer
that is too long. -/
theorem fault_of_run {l : Leaf} {input : Text} {cause : Fault}
    (h : l.run input = .error (.fault cause)) :
    cause = .numeralTooLong ∨ l.Raises cause := by
  cases l with
  | raise cause' =>
      cases h
      exact .inr rfl
  | custom f => exact .inr ⟨input, h⟩
  | integer radix =>
      cases hparse : Integer.parse radix input with
      | ok r => simp [run, hparse, Outcome.ofExcept] at h
      | error cause' =>
          simp only [run, hparse, Outcome.ofExcept, Except.error.injEq,
            Stop.fault.injEq] at h
          exact .inl (h ▸ Integer.fault_of_parse hparse)
  | quoted q => exact absurd h (q.parse_ne_fault input cause)
  | satisfy p label => cases input <;> cases h
  | literal text =>
      simp only [run] at h
      split at h <;> cases h
  | regex r =>
      simp only [run] at h
      split at h <;> cases h
  | _ => cases h

end Leaf

namespace Parser

/-- A function that was given to the parser can answer with the fault. -/
def Raises : Parser → Fault → Prop
  | leaf l, cause => l.Raises cause
  | map p f, cause => p.Raises cause ∨ ∃ v, f v = .error cause
  | bind p f, cause => p.Raises cause ∨ ∃ v, (f v).Raises cause
  | orElse p q, cause => p.Raises cause ∨ q.Raises cause
  | label _ p, cause => p.Raises cause
  | ignore p, cause => p.Raises cause
  | keepFirst p q, cause => p.Raises cause ∨ q.Raises cause
  | notFollowedBy p, cause => p.Raises cause
  | append p q concat, cause =>
    (p.Raises cause ∨ q.Raises cause) ∨ ∃ v w, concat v w = .error cause
  | many p, cause => p.Raises cause
  | lookAhead p, cause => p.Raises cause
  | probe _ p, cause => p.Raises cause
  | cell _, _ => False

variable {settings : Settings} {enter : Nat → Text → Run Reply}
variable {P : Fault → Prop}

theorem record_faults (r : Record) : (record settings r).Faults P := by
  unfold record
  split
  · exact Run.faults_of_ok rfl
  · exact Run.faults_pure _

/-- The faults of a run are those of its functions and its cells, and that of a
numeral that is too long. -/
theorem eval_faults (hlong : P .numeralTooLong) {p : Parser}
    (hraises : ∀ cause, p.Raises cause → P cause)
    (henter : ∀ id, p.Refers id → ∀ t, (enter id t).Faults P) (input : Text) :
    (p.eval settings enter input).Faults P := by
  induction p generalizing input with
  | leaf l =>
      refine Run.faults_emit_bind fun cause hcause => ?_
      rcases Leaf.fault_of_run hcause with rfl | h
      · exact hlong
      · exact hraises cause h
  | map p f ih =>
      have hp := ih (fun cause h => hraises cause (.inl h)) henter input
      refine Run.faults_emit_bind (Run.faults_bind hp fun r => ?_)
      refine Run.faults_ofExcept fun cause hcause => ?_
      exact hraises cause (.inr (Reply.exists_of_map_eq_error hcause))
  | bind p f ihp ihf =>
      have hp := ihp (fun cause h => hraises cause (.inl h))
        (fun id hid => henter id (.inl hid)) input
      have hf := fun v => ihf v (fun cause h => hraises cause (.inr ⟨v, h⟩))
        fun id hid => henter id (.inr ⟨v, hid⟩)
      refine Run.faults_emit_bind (Run.faults_bind hp fun r => ?_)
      cases r with
      | success v rest => exact hf v rest
      | discarded rest => exact hf .nothing rest
      | failure expected rest => exact Run.faults_pure _
  | orElse p q ihp ihq =>
      have hp := ihp (fun cause h => hraises cause (.inl h))
        (fun id hid => henter id (.inl hid)) input
      have hq := ihq (fun cause h => hraises cause (.inr h))
        (fun id hid => henter id (.inr hid)) input
      refine Run.faults_emit_bind (Run.faults_bind hp fun r => ?_)
      split
      · exact Run.faults_pure _
      · exact Run.faults_bind hq fun _ => Run.faults_pure _
  | label text p ih =>
      refine Run.faults_emit_bind (Run.faults_bind (record_faults _) fun _ => ?_)
      refine Run.faults_bind (ih hraises henter input) fun r => ?_
      cases r with
      | success v rest => exact Run.faults_pure _
      | discarded rest => exact Run.faults_pure _
      | failure expected rest =>
          exact Run.faults_bind (record_faults _) fun _ => Run.faults_pure _
  | ignore p ih =>
      have hp := ih hraises henter input
      exact Run.faults_emit_bind (Run.faults_bind hp fun _ => Run.faults_pure _)
  | keepFirst p q ihp ihq =>
      have hp := ihp (fun cause h => hraises cause (.inl h))
        (fun id hid => henter id (.inl hid)) input
      have hq := ihq (fun cause h => hraises cause (.inr h))
        (fun id hid => henter id (.inr hid))
      refine Run.faults_emit_bind (Run.faults_bind hp fun r => ?_)
      split
      · exact Run.faults_bind (hq r.rest) fun _ => Run.faults_pure _
      · exact Run.faults_pure _
  | notFollowedBy p ih =>
      have hp := ih hraises henter input
      exact Run.faults_emit_bind (Run.faults_bind hp fun _ => Run.faults_pure _)
  | append p q concat ihp ihq =>
      have hp := ihp (fun cause h => hraises cause (.inl (.inl h)))
        (fun id hid => henter id (.inl hid)) input
      have hq := ihq (fun cause h => hraises cause (.inl (.inr h)))
        (fun id hid => henter id (.inr hid))
      refine Run.faults_emit_bind (Run.faults_bind hp fun r => ?_)
      split
      · refine Run.faults_bind (hq r.rest) fun s => ?_
        refine Run.faults_ofExcept fun cause hcause => ?_
        exact hraises cause (.inr (Reply.exists_of_append_eq_error hcause))
      · exact Run.faults_pure _
  | many p ih =>
      have hchain := chain_faults (ih hraises henter) input.length input
      exact Run.faults_emit_bind (Run.faults_bind hchain fun _ => Run.faults_pure _)
  | lookAhead p ih =>
      have hp := ih hraises henter input
      exact Run.faults_emit_bind (Run.faults_bind hp fun _ => Run.faults_pure _)
  | probe tag p ih =>
      exact Run.faults_emit_bind (Run.faults_emit_bind (ih hraises henter input))
  | cell id => exact Run.faults_emit_bind (henter id rfl input)

end Parser

namespace Grammar

variable {g : Grammar} {settings : Settings} {p : Parser} {limit : Nat}

/-- A function can answer with the fault that was given to the parser, or to the
definition of a cell that the parser reaches. -/
def Raises (g : Grammar) (p : Parser) (cause : Fault) : Prop :=
  p.Raises cause ∨ ∃ id definition, g.Reaches p id ∧
    g.cells[id]? = some (some definition) ∧ definition.Raises cause

/-- The parser reaches a cell that has no definition. -/
def LacksDefinition (g : Grammar) (p : Parser) : Prop :=
  ∃ id, g.Reaches p id ∧ ∀ definition, g.cells[id]? ≠ some (some definition)

/-- The possible origins of a fault in the runs of the parser. -/
def Origin (g : Grammar) (p : Parser) (cause : Fault) : Prop :=
  cause = .numeralTooLong ∨ g.Raises p cause ∨
    cause = .undefinedCell ∧ g.LacksDefinition p

theorem enter_faults {id : Nat} (hid : g.Reaches p id) (limit : Nat)
    (input : Text) :
    (g.enter settings limit id input).Faults (g.Origin p) := by
  induction limit generalizing id input with
  | zero =>
      intro cause hcause
      cases hcause
  | succ limit ih =>
      simp only [enter]
      split
      · next definition hcell =>
        refine Parser.eval_faults (.inl rfl) ?_ ?_ input
        · intro cause h
          exact .inr (.inl (.inr ⟨id, definition, hid, hcell, h⟩))
        · intro id' hid' t
          exact ih (hid.through hcell hid') t
      · next hcell =>
        intro cause hcause
        cases hcause
        exact .inr (.inr ⟨rfl, id, hid, hcell⟩)

/-- **Origin of faults.**  Every fault of a run was put into the grammar as a
function or as a cell without a definition, or is that of a numeral in the text
that is too long. -/
theorem fault_origin {input : Text} {cause : Fault}
    (h : (g.run settings limit p input).outcome = .error (.fault cause)) :
    g.Origin p cause := by
  refine Parser.eval_faults (.inl rfl) ?_ ?_ input cause h
  · intro cause h
    exact .inr (.inl (.inl h))
  · intro id hid t
    exact enter_faults (.here hid) limit t

end Grammar

end ParserAlgebra
