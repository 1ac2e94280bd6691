import ParserAlgebra.Parser.Terminal
import ParserAlgebra.Proofs.Run.Outcome
/-!
# Matching without regard to case

Two texts are equal without regard to case if they are the same in lower case.  A
caseless parser takes as many code points from the input as its own text has, and
only then looks at lower case.  One code point has a longer form in lower case, the
capital I with a dot above (`length_lower`), so a text may be equal to that of the
parser and still not be as long.

Such a text is matched exactly if it has as many dotted capitals as the text of the
parser, or has more of them and ends the input, because then no more can be taken
(`run_caseless_iff`).  In all other cases too much or too little is taken, and
what is taken is not equal, since a part of a text is shorter in lower case than
the whole.
-/

namespace ParserAlgebra

namespace CodePoint

/-- The capital I with a dot above. -/
def dottedCapitalI : CodePoint := 'İ'

theorem eq_dottedCapitalI_iff {c : CodePoint} : c = dottedCapitalI ↔ c.value = 0x130 := by
  constructor
  · rintro rfl
    rfl
  · intro h
    cases c
    cases h
    rfl

/-- One code point has two code points in lower case, and any other has one. -/
theorem length_lower (c : CodePoint) :
    c.lower.length = if c = dottedCapitalI then 2 else 1 := by
  simp only [eq_dottedCapitalI_iff]
  unfold lower
  split
  · rw [if_neg (by omega)]
    rfl
  · split
    · rfl
    · split
      · rfl
      · rfl

end CodePoint

namespace Text

open CodePoint (dottedCapitalI)

/-- Both forms of sigma are one code point. -/
theorem length_lowerAt (before : Text) (c : CodePoint) (after : Text) :
    (lowerAt before c after).length = if c = dottedCapitalI then 2 else 1 := by
  unfold lowerAt
  split
  · next hsigma =>
    subst hsigma
    split <;> rfl
  · exact c.length_lower

theorem length_lower_go (before text : Text) :
    (lower.go before text).length = text.length + text.count dottedCapitalI := by
  induction text generalizing before with
  | nil => rfl
  | cons c text ih =>
      rw [lower.go, List.length_append, length_lowerAt, ih, List.length_cons, List.count_cons]
      simp only [beq_iff_eq]
      split
      · omega
      · omega

/-- A text is longer in lower case by the number of its dotted capitals. -/
theorem length_lower (text : Text) :
    (lower text).length = text.length + text.count dottedCapitalI :=
  length_lower_go [] text

/-- A beginning of a text is not equal to it in lower case, unless it is all of it. -/
theorem eq_of_prefix_of_lower_eq {start text : Text} (h : start <+: text)
    (hlower : lower start = lower text) : start = text := by
  have hcount : start.count dottedCapitalI ≤ text.count dottedCapitalI :=
    h.sublist.count_le dottedCapitalI
  have hlength := congrArg List.length hlower
  rw [length_lower, length_lower] at hlength
  have hle := h.length_le
  exact h.eq_of_length (by omega)

/-- The beginning of a text with a given length. -/
theorem take_append_eq_iff {start rest : Text} {n : Nat} :
    (start ++ rest).take n = start ↔ n = start.length ∨ (start.length < n ∧ rest = []) := by
  constructor
  · intro h
    have hlength := congrArg List.length h
    rw [List.length_take, List.length_append] at hlength
    by_cases hn : n = start.length
    · exact .inl hn
    · refine .inr ⟨by omega, ?_⟩
      apply List.eq_nil_of_length_eq_zero
      omega
  · rintro (rfl | ⟨hn, rfl⟩)
    · exact List.take_left
    · rw [List.append_nil]
      exact List.take_of_length_le (Nat.le_of_lt hn)

/-- What is taken from the front is equal in lower case only if it is what stands
there. -/
theorem lower_take_append_eq_iff {start rest : Text} {n : Nat} :
    lower ((start ++ rest).take n) = lower start ↔ (start ++ rest).take n = start := by
  constructor
  · intro h
    rcases List.prefix_or_prefix_of_prefix (List.take_prefix n (start ++ rest))
      (List.prefix_append start rest) with hprefix | hprefix
    · exact eq_of_prefix_of_lower_eq hprefix h
    · exact (eq_of_prefix_of_lower_eq hprefix h.symm).symm
  · intro h
    rw [h]

end Text

theorem Parser.caselessOf_of_ne_nil {text : Text} (h : text ≠ []) :
    caselessOf text = .ok (caseless text) := by
  cases text with
  | nil => exact absurd rfl h
  | cons c text => rfl

namespace Leaf

variable {v w rest : Text}

theorem run_caseless_of_take_eq (hlower : Text.lower v = Text.lower w)
    (h : (w ++ rest).take v.length = w) :
    (caseless v).run (w ++ rest) = .ok (.success (.text w) rest) := by
  have hdrop : (w ++ rest).drop v.length = rest := by
    have hboth := List.take_append_drop v.length (w ++ rest)
    rw [h] at hboth
    exact List.append_cancel_left hboth
  simp only [run, h, hdrop, hlower, if_true]

theorem run_caseless_of_take_ne (hlower : Text.lower v = Text.lower w)
    (h : (w ++ rest).take v.length ≠ w) :
    (caseless v).run (w ++ rest) = .ok (.failure (Text.call "stringI" v) (w ++ rest)) := by
  have hne : Text.lower ((w ++ rest).take v.length) ≠ Text.lower v := by
    rw [hlower]
    exact fun heq => h (Text.lower_take_append_eq_iff.mp heq)
  simp only [run, if_neg hne]

end Leaf

namespace Grammar

open CodePoint (dottedCapitalI)

/-- **When a text is matched by another one without regard to case.**  If two texts
are the same in lower case, then a caseless parser for the one matches the other
exactly if this has as many dotted capitals, or has more of them and nothing follows
it.  If it does not match, the parser fails. -/
theorem run_caseless_iff (g : Grammar) (s : Settings) (limit : Nat) {v w : Text} (hv : v ≠ [])
    (hlower : Text.lower v = Text.lower w) (rest : Text) :
    ∃ p, Parser.caselessOf v = .ok p ∧
      ((g.run s limit p (w ++ rest)).outcome = .ok (.success (.text w) rest) ↔
        w.count dottedCapitalI = v.count dottedCapitalI ∨
        (v.count dottedCapitalI < w.count dottedCapitalI ∧ rest = [])) ∧
      ((g.run s limit p (w ++ rest)).outcome = .ok (.success (.text w) rest) ∨
        (g.run s limit p (w ++ rest)).outcome =
          .ok (.failure (Text.call "stringI" v) (w ++ rest))) := by
  refine ⟨_, Parser.caselessOf_of_ne_nil hv, ?_⟩
  rw [Parser.caseless, outcome_run_leaf]
  have hlength := congrArg List.length hlower
  rw [Text.length_lower, Text.length_lower] at hlength
  have hfits : (w ++ rest).take v.length = w ↔
      w.count dottedCapitalI = v.count dottedCapitalI ∨
      (v.count dottedCapitalI < w.count dottedCapitalI ∧ rest = []) := by
    have heq : v.length = w.length ↔ w.count dottedCapitalI = v.count dottedCapitalI := by omega
    have hlt : w.length < v.length ↔ v.count dottedCapitalI < w.count dottedCapitalI := by omega
    rw [Text.take_append_eq_iff, heq, hlt]
  rw [← hfits]
  by_cases htake : (w ++ rest).take v.length = w
  · have hrun := Leaf.run_caseless_of_take_eq hlower htake
    exact ⟨⟨fun _ => htake, fun _ => hrun⟩, .inl hrun⟩
  · have hrun := Leaf.run_caseless_of_take_ne hlower htake
    refine ⟨⟨fun hsuccess => ?_, fun h => absurd h htake⟩, .inr hrun⟩
    cases hrun.symm.trans hsuccess

/-- The small letters and the mark of a dotted capital match the capital where the
text ends. -/
theorem smallDotted_matches_capital :
    let small : Text := [('i' : Char), CodePoint.ofNat 0x307]
    let capital : Text := [dottedCapitalI]
    small ≠ [] ∧ Text.lower small = Text.lower capital ∧
      ((({} : Grammar).run {} 0 (.caseless small) capital).outcome =
        .ok (.success (.text capital) [])) := by
  intro small capital
  have hlower : Text.lower small = Text.lower capital := by decide +kernel
  obtain ⟨p, hp, hiff, -⟩ :=
    run_caseless_iff {} {} 0 (List.cons_ne_nil _ _ : small ≠ []) hlower []
  obtain rfl := Except.ok.inj hp
  exact ⟨List.cons_ne_nil _ _, hlower, hiff.mpr (.inr ⟨by decide, rfl⟩)⟩

/-- The other way round, a dotted capital does not match them. -/
theorem capital_not_matches_smallDotted :
    let small : Text := [('i' : Char), CodePoint.ofNat 0x307]
    let capital : Text := [dottedCapitalI]
    Text.lower capital = Text.lower small ∧
      Parser.caselessOf capital = .ok (.caseless capital) ∧
      (({} : Grammar).run {} 0 (.caseless capital) (small ++ [])).outcome ≠
        .ok (.success (.text small) []) := by
  intro small capital
  have hlower : Text.lower capital = Text.lower small := by decide +kernel
  have htake : (small ++ []).take capital.length ≠ small := by decide
  refine ⟨hlower, rfl, ?_⟩
  rw [Parser.caseless, outcome_run_leaf, Leaf.run_caseless_of_take_ne hlower htake]
  intro h
  cases h

end Grammar

end ParserAlgebra
