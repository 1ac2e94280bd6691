import ParserAlgebra.Proofs.Remainder.Run
import ParserAlgebra.Proofs.Termination.Leaf
/-!
# Strict parsers

A parser is strict if it consumes something wherever it succeeds, and if this
can be told from its tree: a strict leaf, or a sequence with a strict part.
Nothing is assumed of the cells in it, except that they obey the suffix rule, so
a cell by itself does not count as strict.

`eval_yields_advances` is the fact about runs.  In a sequence the strict part
may come early or late; the other parts cannot give back what it has consumed,
because of the suffix rule.
-/

namespace ParserAlgebra

namespace Reply

/-- A success leaves less than the text. -/
def Advances (input : Text) (r : Reply) : Prop :=
  r.isSuccess → r.rest.length < input.length

theorem isSuccess_ignore (r : Reply) : r.ignore.isSuccess = r.isSuccess := by
  cases r <;> rfl

/-- Two parts in a row advance if one of them does and neither gives anything
back. -/
theorem length_lt_of_sequence
    {P Q : Prop} {input : Text} {r s : Reply}
    (hPQ : P ∨ Q)
    (hr : r.isSuccess)
    (hs : s.isSuccess)
    (hrest : r.rest <:+ input)
    (hrest' : s.rest <:+ r.rest)
    (hP : P → r.Advances input)
    (hQ : Q → s.Advances r.rest) :
    s.rest.length < input.length := by
  have hle := hrest.length_le
  have hle' := hrest'.length_le
  rcases hPQ with hp | hq
  · have hlt := hP hp hr
    omega
  · have hlt := hQ hq hs
    omega

end Reply

namespace Parser

/-- Wherever the parser succeeds, it consumes something, by the form of its
tree. -/
def Strict : Parser → Prop
  | leaf l => l.Strict
  | map p _ => p.Strict
  | bind p f => p.Strict ∨ ∀ v, (f v).Strict
  | orElse p q => p.Strict ∧ q.Strict
  | label _ p => p.Strict
  | ignore p => p.Strict
  | keepFirst p q => p.Strict ∨ q.Strict
  | notFollowedBy _ => False
  | append p q _ => p.Strict ∨ q.Strict
  | many _ => False
  | lookAhead _ => False
  | probe _ p => p.Strict
  | cell _ => False

section Forms

variable {p q : Parser} {ps : List Parser} {text : Text}

theorem strict_of_literalOf (h : literalOf text = .ok p) : p.Strict := by
  unfold literalOf at h
  split at h
  · cases h
  · next hne =>
      cases h
      exact fun hnil => hne (by simp [hnil])

theorem strict_of_caselessOf (h : caselessOf text = .ok p) : p.Strict := by
  unfold caselessOf at h
  split at h
  · cases h
  · next hne =>
      cases h
      exact fun hnil => hne (by simp [hnil])

theorem strict_decimalFraction : decimalFraction.Strict := by
  show 0 < Decimal.pattern.minLength
  decide

theorem strict_keepSecond (h : p.Strict ∨ q.Strict) : (p.keepSecond q).Strict :=
  h.imp_right fun hq _ => hq

/-- Folding parsers together is strict if joining two of them is strict as
soon as one of them is. -/
theorem strict_foldl {join : Parser → Parser → Parser}
    (hjoin : ∀ {p q : Parser}, p.Strict ∨ q.Strict → (join p q).Strict)
    (h : ∃ q ∈ p :: ps, q.Strict) : (ps.foldl join p).Strict := by
  induction ps generalizing p with
  | nil =>
      obtain ⟨q, hq, hstrict⟩ := h
      rw [List.mem_singleton] at hq
      exact hq ▸ hstrict
  | cons p' ps ih =>
      obtain ⟨q, hq, hstrict⟩ := h
      refine ih ?_
      rcases List.mem_cons.mp hq with rfl | hq
      · exact ⟨join q p', List.mem_cons_self, hjoin (.inl hstrict)⟩
      · rcases List.mem_cons.mp hq with rfl | hq
        · exact ⟨join p q, List.mem_cons_self, hjoin (.inr hstrict)⟩
        · exact ⟨q, List.mem_cons_of_mem _ hq, hstrict⟩

/-- A sequence of parsers is strict if one of them is. -/
theorem strict_of_sequence
    (h : sequence ps = .ok p)
    (hstrict : ∃ q ∈ ps, q.Strict) :
    p.Strict := by
  cases ps with
  | nil => cases h
  | cons p' ps =>
      cases h
      exact strict_foldl strict_keepSecond hstrict

/-- Parsers whose outputs are added are strict together if one of them is. -/
theorem strict_of_assemble
    (h : assemble ps = .ok p)
    (hstrict : ∃ q ∈ ps, q.Strict) :
    p.Strict := by
  cases ps with
  | nil => cases h
  | cons p' ps =>
      cases h
      exact strict_foldl id hstrict

/-- Parsers whose outputs are collected are strict together if one of them
is. -/
theorem strict_collect (h : ∃ q ∈ ps, q.Strict) : (collect ps).Strict := by
  induction ps with
  | nil =>
      obtain ⟨q, hq, -⟩ := h
      cases hq
  | cons p ps ih =>
      obtain ⟨q, hq, hstrict⟩ := h
      rcases List.mem_cons.mp hq with rfl | hq
      · exact Or.inl hstrict
      · exact Or.inr fun _ => ih ⟨q, hq, hstrict⟩

end Forms

variable {settings : Settings} {enter : Nat → Text → Run Reply}

/-- **Strict parsers consume.**  A success of a strict parser leaves less than
the whole text. -/
theorem eval_yields_advances
    {p : Parser}
    (hleaf : p.EachLeaf Leaf.KeepsSuffix)
    (henter : ∀ id, p.Refers id → ∀ t, (enter id t).Yields (·.rest <:+ t))
    (input : Text) :
    (p.eval settings enter input).Yields
      fun r => p.Strict → r.Advances input := by
  induction p generalizing input with
  | leaf l =>
      refine Run.yields_emit_bind ?_
      intro r hr hstrict hsucc
      exact hstrict.length_lt_of_run hr hsucc
  | map p f ih =>
      have hp := ih hleaf henter input
      refine Run.yields_emit_bind (Run.yields_bind hp fun r hr => ?_)
      refine Run.yields_ofExcept fun r' hr' hstrict hsucc => ?_
      obtain ⟨hrest, hsame⟩ := Reply.rest_isSuccess_of_map hr'
      rw [hrest]
      exact hr hstrict (hsame ▸ hsucc)
  | bind p f ihp ihf =>
      have hp := fun id hid => henter id (.inl hid)
      have hyields : (p.eval settings enter input).Yields (·.rest <:+ input) :=
        eval_yields_suffix hleaf.1 hp input
      have hboth := hyields.and (ihp hleaf.1 hp input)
      refine Run.yields_emit_bind ?_
      refine Run.yields_bind hboth fun r ⟨hrest, hadv⟩ => ?_
      have hf : ∀ v, r.isSuccess → ((f v).eval settings enter r.rest).Yields
          fun s => (p.Strict ∨ ∀ v, (f v).Strict) → s.Advances input := by
        intro v hr s hs hstrict hsucc
        have hv := fun id hid => henter id (.inr ⟨v, hid⟩)
        have hrest' : s.rest <:+ r.rest :=
          eval_yields_suffix (hleaf.2 v) hv r.rest s hs
        exact Reply.length_lt_of_sequence hstrict hr hsucc hrest hrest' hadv
          fun hf => ihf v (hleaf.2 v) hv r.rest s hs (hf v)
      cases r with
      | success v rest => exact hf v rfl
      | discarded rest => exact hf .nothing rfl
      | failure expected rest =>
          refine Run.yields_pure fun _ hsucc => ?_
          cases hsucc
  | orElse p q ihp ihq =>
      have hp := ihp hleaf.1 (fun id hid => henter id (.inl hid)) input
      have hq := ihq hleaf.2 (fun id hid => henter id (.inr hid)) input
      exact orElse_yields (fun r hr hstrict => hp r hr hstrict.1)
        (fun r hr hstrict => hq r hr hstrict.2)
  | label text p ih =>
      have hp := ih hleaf henter input
      refine label_yields (fun r hr _ => hp r hr) fun _ hsucc => ?_
      cases hsucc
  | ignore p ih =>
      have hp := ih hleaf henter input
      refine Run.yields_emit_bind (Run.yields_bind hp fun r hr => ?_)
      refine Run.yields_pure fun hstrict hsucc => ?_
      rw [Reply.isSuccess_ignore] at hsucc
      rw [Reply.rest_ignore]
      exact hr hstrict hsucc
  | keepFirst p q ihp ihq =>
      have hp := fun id hid => henter id (.inl hid)
      have hq := fun id hid => henter id (.inr hid)
      have hyields : (p.eval settings enter input).Yields (·.rest <:+ input) :=
        eval_yields_suffix hleaf.1 hp input
      have hboth := hyields.and (ihp hleaf.1 hp input)
      refine Run.yields_emit_bind ?_
      refine Run.yields_bind hboth fun r ⟨hrest, hadv⟩ => ?_
      split
      · next hr =>
        have hyields' : (q.eval settings enter r.rest).Yields (·.rest <:+ r.rest) :=
          eval_yields_suffix hleaf.2 hq r.rest
        have hboth' := hyields'.and (ihq hleaf.2 hq r.rest)
        refine Run.yields_bind hboth' fun s ⟨hrest', hadv'⟩ => ?_
        refine Run.yields_pure fun hstrict hsucc => ?_
        split at hsucc
        · next hs =>
          rw [if_pos hs, Reply.rest_withRest]
          exact Reply.length_lt_of_sequence hstrict hr hs hrest hrest' hadv
            hadv'
        · next hs => exact absurd hsucc hs
      · next hr => exact Run.yields_pure fun _ hsucc => absurd hsucc hr
  | append p q concat ihp ihq =>
      have hp := fun id hid => henter id (.inl hid)
      have hq := fun id hid => henter id (.inr hid)
      have hyields : (p.eval settings enter input).Yields (·.rest <:+ input) :=
        eval_yields_suffix hleaf.1 hp input
      have hboth := hyields.and (ihp hleaf.1 hp input)
      refine Run.yields_emit_bind ?_
      refine Run.yields_bind hboth fun r ⟨hrest, hadv⟩ => ?_
      split
      · next hr =>
        have hyields' : (q.eval settings enter r.rest).Yields (·.rest <:+ r.rest) :=
          eval_yields_suffix hleaf.2 hq r.rest
        have hboth' := hyields'.and (ihq hleaf.2 hq r.rest)
        refine Run.yields_bind hboth' fun s ⟨hrest', hadv'⟩ => ?_
        refine Run.yields_ofExcept fun u hu hstrict hsucc => ?_
        obtain ⟨hsame, hsame'⟩ := Reply.rest_isSuccess_of_append hr hu
        rw [hsame'] at hsucc
        rw [hsame]
        exact Reply.length_lt_of_sequence hstrict hr hsucc hrest hrest' hadv
          hadv'
      · next hr => exact Run.yields_pure fun _ hsucc => absurd hsucc hr
  | probe tag p ih =>
      exact Run.yields_emit_bind (Run.yields_emit_bind (ih hleaf henter input))
  | notFollowedBy p => exact fun _ _ hstrict => hstrict.elim
  | many p => exact fun _ _ hstrict => hstrict.elim
  | lookAhead p => exact fun _ _ hstrict => hstrict.elim
  | cell id => exact fun _ _ hstrict => hstrict.elim

end Parser

end ParserAlgebra
