import Mathlib.Logic.ExistsUnique
import ParserAlgebra.Proofs.Run.Congruence
/-!
# The limit on nesting

A run is given a limit on the nesting of cells, and is left unfinished where it
would go deeper.  The limit is a bound and not part of the meaning: a run that
ends within one limit is the same run within every larger one, with the same
outcome and the same events (`run_eq_of_ends`).  So a parser *returns* a reply
if it gives it at some limit, and then it gives it at every larger one; and each
run *concludes* with one outcome, which it has at all limits that are large
enough (`existsUnique_concludes`).
-/

namespace ParserAlgebra

/-- A run that ends is the second run. -/
def Run.Persists ⦃α : Type⦄ (x y : Run α) : Prop := x.Ends → y = x

theorem Run.persists_congruence : Run.Congruence Run.Persists :=
  eqUnless_congruence .unfinished

namespace Grammar

variable {g : Grammar} {settings : Settings} {p : Parser} {input : Text}

/-- **More nesting changes nothing.**  A run that ends within one limit is the
same within every larger one. -/
theorem run_eq_of_ends
    {limit limit' : Nat}
    (h : (g.run settings limit p input).Ends)
    (hle : limit ≤ limit') :
    g.run settings limit' p input = g.run settings limit p input := by
  obtain ⟨extra, rfl⟩ := Nat.exists_eq_add_of_le' hle
  have hR := Run.persists_congruence
  refine run_congr hR ?_ (fun _ => hR.refl _) ?_ limit p input h
  · intro id input hends
    exact absurd rfl hends
  · intro limit p q input hp hq
    exact Parser.orElse_congr hR rfl hp hq

theorem run_eq_ok_of_le
    {limit limit' : Nat} {r : Reply}
    (h : (g.run settings limit p input).outcome = .ok r)
    (hle : limit ≤ limit') :
    (g.run settings limit' p input).outcome = .ok r := by
  have hends : (g.run settings limit p input).Ends := by simp [Run.Ends, h]
  rw [run_eq_of_ends hends hle, h]

/-- The run of the parser on the input returns the reply, with any nesting
that it needs. -/
def Returns
    (g : Grammar) (settings : Settings) (p : Parser) (input : Text)
    (r : Reply) :
    Prop :=
  ∃ limit, (g.run settings limit p input).outcome = .ok r

/-- The run of the parser on the input has this outcome, with any nesting that
it needs.  A run without end concludes as unfinished. -/
def Concludes
    (g : Grammar) (settings : Settings) (p : Parser) (input : Text)
    (o : Outcome Reply) :
    Prop :=
  ∃ enough, ∀ limit, enough ≤ limit → (g.run settings limit p input).outcome = o

/-- Every run has exactly one outcome. -/
theorem existsUnique_concludes
    (g : Grammar) (settings : Settings) (p : Parser) (input : Text) :
    ∃! o, g.Concludes settings p input o := by
  have hexists : ∃ o, g.Concludes settings p input o := by
    by_cases hends : ∃ limit, (g.run settings limit p input).Ends
    · obtain ⟨enough, hends⟩ := hends
      exact ⟨_, enough, fun limit hle => by rw [run_eq_of_ends hends hle]⟩
    · exact ⟨.error .unfinished, 0, fun limit _ =>
        Classical.not_not.mp fun hne => hends ⟨limit, hne⟩⟩
  obtain ⟨o, ho⟩ := hexists
  refine ⟨o, ho, fun o' ho' => ?_⟩
  obtain ⟨enough, ho⟩ := ho
  obtain ⟨enough', ho'⟩ := ho'
  rw [← ho' _ (Nat.le_max_right enough enough'),
    ho _ (Nat.le_max_left enough enough')]

theorem Concludes.eq {o o' : Outcome Reply} (h : g.Concludes settings p input o)
    (h' : g.Concludes settings p input o') : o = o' :=
  (existsUnique_concludes g settings p input).unique h h'

theorem concludes_ok_iff {r : Reply} :
    g.Concludes settings p input (.ok r) ↔ g.Returns settings p input r := by
  constructor
  · intro ⟨enough, h⟩
    exact ⟨enough, h enough (Nat.le_refl _)⟩
  · intro ⟨limit, h⟩
    exact ⟨limit, fun _ hle => run_eq_ok_of_le h hle⟩

theorem Returns.eq {r r' : Reply} (h : g.Returns settings p input r)
    (h' : g.Returns settings p input r') : r = r' := by
  have heq := (concludes_ok_iff.mpr h).eq (concludes_ok_iff.mpr h')
  exact Except.ok.inj heq

theorem Returns.iff_eq {r r' : Reply} (h : g.Returns settings p input r) :
    g.Returns settings p input r' ↔ r = r' := by
  constructor
  · exact h.eq
  · rintro rfl
    exact h

end Grammar

end ParserAlgebra
