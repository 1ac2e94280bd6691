import ParserAlgebra.Proofs.Reach
import ParserAlgebra.Proofs.Remainder.Leaf
import ParserAlgebra.Proofs.Run.Limit
/-!
# What a run leaves

The reply to a text leaves an end of that text, in a success and in a failure
alike.  Positions of errors and the progress test of repetitions rest on this.

It is shown for the leaves first, then for every parser by induction on the tree
(`eval_yields_suffix`), where the cells of the tree are assumed to obey the
rule, and at last for the cells by induction on the limit
(`enter_yields_suffix`).  A later part of a sequence runs on what an earlier one
left, so an end of its text is an end of the whole text.

The rules for a choice and a label hold of any property of replies
(`orElse_yields`, `label_yields`), as other inductions on the tree need them too.
-/

namespace ParserAlgebra

namespace Reply

/-- Applying a function changes neither the rest of a reply nor whether it is
a success. -/
theorem rest_isSuccess_of_map {f : Value → Except Fault Value} {r r' : Reply}
    (h : r.map f = .ok r') : r'.rest = r.rest ∧ r'.isSuccess = r.isSuccess := by
  rcases r.fails_or_accepts with ⟨e, t, rfl⟩ | ⟨v, rest, haccept⟩
  · cases h
    exact ⟨rfl, rfl⟩
  · rw [map_of_accepted? haccept] at h
    rw [rest_of_accepted? haccept, isSuccess_of_accepted? haccept]
    cases hv : f v with
    | error cause =>
        rw [hv] at h
        cases h
    | ok w =>
        rw [hv] at h
        cases h
        exact ⟨rfl, rfl⟩

/-- After a success, two replies in a row end like the second. -/
theorem rest_isSuccess_of_append
    {concat : Value → Value → Except Fault Value} {r s t : Reply}
    (hr : r.isSuccess)
    (h : r.append concat s = .ok t) :
    t.rest = s.rest ∧ t.isSuccess = s.isSuccess := by
  cases r with
  | success v rest =>
      cases s with
      | success w rest' =>
          cases hvw : concat v w with
          | error cause => simp [append, hvw, Bind.bind, Except.bind] at h
          | ok u =>
              simp only [append, hvw, Bind.bind, Except.bind, Pure.pure,
                Except.pure, Except.ok.injEq] at h
              subst h
              exact ⟨rfl, rfl⟩
      | discarded rest' =>
          cases h
          exact ⟨rfl, rfl⟩
      | failure expected rest' =>
          cases h
          exact ⟨rfl, rfl⟩
  | discarded rest =>
      cases h
      exact ⟨rfl, rfl⟩
  | failure expected rest => cases hr

theorem alternative_eq_or
    (r s : Reply) :
    r.alternative s = r ∨ r.alternative s = s := by
  cases r with
  | success v rest => exact Or.inl rfl
  | discarded rest => exact Or.inl rfl
  | failure expected rest =>
      simp only [alternative]
      split
      · exact Or.inr rfl
      · exact Or.inl rfl

theorem rest_ignore (r : Reply) : r.ignore.rest = r.rest := by
  cases r <;> rfl

end Reply

/-- A repetition leaves an end of its text if each of its steps does. -/
theorem chain_yields_suffix {step : Text → Run Reply}
    (h : ∀ t, (step t).Yields (·.rest <:+ t)) (bound : Nat) (input : Text) :
    (chain step bound input).Yields (·.2 <:+ input) := by
  induction bound generalizing input with
  | zero =>
      exact Run.yields_bind (h input) fun _ _ => Run.yields_pure List.suffix_rfl
  | succ bound ih =>
      refine Run.yields_bind (h input) fun r hr => ?_
      split
      · next v rest hvrest =>
        have hrest : r.rest = rest := Reply.rest_of_accepted? hvrest
        split
        · refine Run.yields_bind (ih rest) fun vs hvs => Run.yields_pure ?_
          rw [← hrest] at hvs
          exact hvs.trans hr
        · exact Run.yields_pure List.suffix_rfl
      · exact Run.yields_pure List.suffix_rfl

namespace Parser

variable {settings : Settings} {enter : Nat → Text → Run Reply}

theorem record_yields (r : Record) : (record settings r).Yields fun _ => True :=
  fun _ _ => trivial

/-- A choice results in what one of its sides results in. -/
theorem orElse_yields {P : Reply → Prop} {p q : Parser} {input : Text}
    (hp : (p.eval settings enter input).Yields P)
    (hq : (q.eval settings enter input).Yields P) :
    ((orElse p q).eval settings enter input).Yields P := by
  refine Run.yields_emit_bind (Run.yields_bind hp fun r hr => ?_)
  split
  · exact Run.yields_pure hr
  · refine Run.yields_bind hq fun s hs => Run.yields_pure ?_
    rcases Reply.alternative_eq_or r s with h | h
    · rw [h]
      exact hr
    · rw [h]
      exact hs

/-- A label leaves successes as they are, and has one failure of its own. -/
theorem label_yields {P : Reply → Prop} {text : Text} {p : Parser} {input : Text}
    (hp : (p.eval settings enter input).Yields fun r => r.isSuccess → P r)
    (hfailure : P (.failure text input)) :
    ((label text p).eval settings enter input).Yields P := by
  refine Run.yields_emit_bind ?_
  refine Run.yields_bind (record_yields _) fun _ _ => ?_
  refine Run.yields_bind hp fun r hr => ?_
  cases r with
  | success v rest => exact Run.yields_pure (hr rfl)
  | discarded rest => exact Run.yields_pure (hr rfl)
  | failure expected rest =>
      refine Run.yields_bind (record_yields _) fun _ _ => ?_
      exact Run.yields_pure hfailure

/-- Every parser leaves an end of its text, if the leaves and the cells in it
do. -/
theorem eval_yields_suffix
    {p : Parser}
    (hleaf : p.EachLeaf Leaf.KeepsSuffix)
    (henter : ∀ id, p.Refers id → ∀ t, (enter id t).Yields (·.rest <:+ t))
    (input : Text) :
    (p.eval settings enter input).Yields (·.rest <:+ input) := by
  induction p generalizing input with
  | leaf l =>
      refine Run.yields_emit_bind ?_
      intro r hr
      exact Leaf.suffix_of_run hleaf hr
  | map p f ih =>
      have hp := ih hleaf henter input
      refine Run.yields_emit_bind (Run.yields_bind hp fun r hr => ?_)
      refine Run.yields_ofExcept fun r' hr' => ?_
      rw [(Reply.rest_isSuccess_of_map hr').1]
      exact hr
  | bind p f ihp ihf =>
      have hp := ihp hleaf.1 (fun id hid => henter id (.inl hid)) input
      refine Run.yields_emit_bind (Run.yields_bind hp fun r hr => ?_)
      have hf : ∀ v, ((f v).eval settings enter r.rest).Yields
          (·.rest <:+ input) := by
        intro v s hs
        have hv := fun id hid => henter id (.inr ⟨v, hid⟩)
        have hsr : s.rest <:+ r.rest := ihf v (hleaf.2 v) hv r.rest s hs
        exact hsr.trans hr
      cases r with
      | success v rest => exact hf v
      | discarded rest => exact hf .nothing
      | failure expected rest => exact Run.yields_pure hr
  | orElse p q ihp ihq =>
      have hp := ihp hleaf.1 (fun id hid => henter id (.inl hid)) input
      have hq := ihq hleaf.2 (fun id hid => henter id (.inr hid)) input
      exact orElse_yields hp hq
  | label text p ih =>
      have hp := ih hleaf henter input
      exact label_yields (fun r hr _ => hp r hr) List.suffix_rfl
  | ignore p ih =>
      have hp := ih hleaf henter input
      refine Run.yields_emit_bind (Run.yields_bind hp fun r hr => ?_)
      refine Run.yields_pure ?_
      rw [Reply.rest_ignore]
      exact hr
  | keepFirst p q ihp ihq =>
      have hp := ihp hleaf.1 (fun id hid => henter id (.inl hid)) input
      refine Run.yields_emit_bind (Run.yields_bind hp fun r hr => ?_)
      split
      · have hq := ihq hleaf.2 (fun id hid => henter id (.inr hid)) r.rest
        refine Run.yields_bind hq fun s hs => Run.yields_pure ?_
        split
        · rw [Reply.rest_withRest]
          exact hs.trans hr
        · exact hs.trans hr
      · exact Run.yields_pure hr
  | notFollowedBy p ih =>
      have hp := ih hleaf henter input
      refine Run.yields_emit_bind (Run.yields_bind hp fun r _ => ?_)
      refine Run.yields_pure ?_
      split <;> exact List.suffix_rfl
  | append p q concat ihp ihq =>
      have hp := ihp hleaf.1 (fun id hid => henter id (.inl hid)) input
      refine Run.yields_emit_bind (Run.yields_bind hp fun r hr => ?_)
      split
      · next hsucc =>
        have hq := ihq hleaf.2 (fun id hid => henter id (.inr hid)) r.rest
        refine Run.yields_bind hq fun s hs => ?_
        refine Run.yields_ofExcept fun u hu => ?_
        rw [(Reply.rest_isSuccess_of_append hsucc hu).1]
        exact hs.trans hr
      · exact Run.yields_pure hr
  | many p ih =>
      have hchain := chain_yields_suffix (ih hleaf henter) input.length input
      refine Run.yields_emit_bind (Run.yields_bind hchain fun vs hvs => ?_)
      exact Run.yields_pure hvs
  | lookAhead p ih =>
      have hp := ih hleaf henter input
      refine Run.yields_emit_bind (Run.yields_bind hp fun r hr => ?_)
      refine Run.yields_pure ?_
      split
      · rw [Reply.rest_withRest]
      · exact hr
  | probe tag p ih =>
      exact Run.yields_emit_bind (Run.yields_emit_bind (ih hleaf henter input))
  | cell id =>
      exact Run.yields_emit_bind (henter id rfl input)

end Parser

namespace Grammar

variable {g : Grammar} {settings : Settings} {p : Parser}

/-- The cells that a parser reaches leave ends of their texts, whatever the
limit. -/
theorem enter_yields_suffix
    (hleaf : g.EachLeaf Leaf.KeepsSuffix p)
    (limit : Nat) {id : Nat}
    (hid : g.Reaches p id)
    (input : Text) :
    (g.enter settings limit id input).Yields (·.rest <:+ input) := by
  induction limit generalizing id input with
  | zero =>
      intro r hr
      cases hr
  | succ limit ih =>
      simp only [enter]
      split
      · next definition hcell =>
        refine Parser.eval_yields_suffix (hleaf.reached hid hcell) ?_ input
        intro id' hid' t
        exact ih (hid.through hcell hid') t
      · intro r hr
        cases hr

/-- **Suffix invariant.**  The rest of every reply is an end of the input:
that of a success with or without an output, and that of a failure.  Of the
leaves, only those with a function of their own for their behaviour have to be
assumed to keep to it. -/
theorem rest_suffix_of_run
    (hleaf : g.EachLeaf Leaf.KeepsSuffix p)
    {limit : Nat} {input : Text} {r : Reply}
    (h : (g.run settings limit p input).outcome = .ok r) :
    r.rest <:+ input := by
  refine Parser.eval_yields_suffix hleaf.own ?_ input r h
  intro id hid t
  exact enter_yields_suffix hleaf limit (.here hid) t

/-- The rule at a failure inside parentheses, where a hexadecimal digit is
missing. -/
theorem rest_suffix_of_sums_run :
    (sums.run {} 4 (.cell 0) "(0xg").outcome = .ok (.failure "char(()" "0xg") ∧
      Text.ofString "0xg" <:+ Text.ofString "(0xg" := by
  have hleaf : sums.EachLeaf Leaf.KeepsSuffix (.cell 0) :=
    eachLeaf_sums (fun _ _ => trivial) trivial 0
  have hrun : (sums.run {} 4 (.cell 0) "(0xg").outcome =
      .ok (.failure "char(()" "0xg") := rfl
  exact ⟨hrun, rest_suffix_of_run hleaf hrun⟩

end Grammar

end ParserAlgebra
