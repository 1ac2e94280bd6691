import ParserAlgebra.Regex.Match
/-!
# What a match leaves

A matcher hands what it leaves to the match of everything that follows.  So the
answer of a matcher is an answer of its continuation at some later place, and
the text at that place is an end of the text at which the matcher began.
`Matcher.Consumes n` says this and that the place is at least `n` code points
later.  The least length of a pattern is such a number (`consumes_run`), by
induction on the pattern.
-/

namespace ParserAlgebra.Regex

/-- The number of code points that every match of a pattern has at least. -/
def Pattern.minLength : Pattern → Nat
  | empty => 0
  | one _ => 1
  | anchor _ => 0
  | seq p q => p.minLength + q.minLength
  | alt p q => min p.minLength q.minLength
  | group _ p => p.minLength
  | times _ least _ p => least * p.minLength

/-- The answer of two ways in order is that of one of them. -/
theorem some_of_orElse {α : Type} {x : Option α} {y : Unit → Option α} {a : α}
    (h : x.orElse y = some a) : x = some a ∨ y () = some a := by
  cases x with
  | none => exact Or.inr h
  | some b => exact Or.inl h

namespace Matcher

/-- Every answer is one of the continuation, at a place at least `n` code
points later. -/
def Consumes (n : Nat) (m : Matcher) : Prop :=
  ∀ (k : State → Option State) (s t : State), m k s = some t →
    ∃ u, u.rest <:+ s.rest ∧ u.rest.length + n ≤ s.rest.length ∧ k u = some t

variable {m m' : Matcher} {n n' : Nat}

theorem Consumes.mono (h : m.Consumes n) (hle : n' ≤ n) : m.Consumes n' := by
  intro k s t hm
  obtain ⟨u, hu, hlen, hk⟩ := h k s t hm
  exact ⟨u, hu, by omega, hk⟩

/-- A continuation that is tried at once leaves the place where it is. -/
theorem consumes_zero_of_continuation
    {k : State → Option State} {s t : State}
    (h : k s = some t) :
    ∃ u, u.rest <:+ s.rest ∧ u.rest.length + 0 ≤ s.rest.length ∧ k u = some t :=
  ⟨s, List.suffix_rfl, Nat.le_refl _, h⟩

/-- What two matchers in a row consume adds up. -/
theorem Consumes.comp (h : m.Consumes n) (h' : m'.Consumes n') :
    Consumes (n + n') fun k s => m (m' k) s := by
  intro k s t hm
  obtain ⟨u, hu, hulen, hk⟩ := h (m' k) s t hm
  obtain ⟨v, hv, hvlen, hk⟩ := h' k u t hk
  exact ⟨v, hv.trans hu, by omega, hk⟩

theorem consumes_exactly (h : m.Consumes n) (count : Nat) :
    (exactly m count).Consumes (count * n) := by
  induction count with
  | zero =>
      rw [Nat.zero_mul]
      exact fun k s t hk => consumes_zero_of_continuation hk
  | succ count ih =>
      have hcomp := h.comp ih
      rw [Nat.succ_mul, Nat.add_comm]
      intro k s t hm
      exact hcomp k s t hm

/-- A repetition goes on from a later place, whichever of its two ways is
preferred. -/
theorem consumes_upTo
    (h : m.Consumes 0)
    (greedy : Bool) (bound : Nat) (most : Option Nat) :
    (upTo m greedy bound most).Consumes 0 := by
  induction bound generalizing most with
  | zero => exact fun k s t hk => consumes_zero_of_continuation hk
  | succ bound ih =>
      intro k s t hm
      -- one more iteration ends in a place from which the rest of them goes on,
      -- or `k` at once
      have hmore : ∀ t, m (fun u => if s.pos < u.pos then
          upTo m greedy bound (most.map (· - 1)) k u else k u) s = some t →
          ∃ u, u.rest <:+ s.rest ∧ u.rest.length + 0 ≤ s.rest.length ∧
            k u = some t := by
        intro t ht
        obtain ⟨u, hu, hulen, hk⟩ := h _ s t ht
        split at hk
        · obtain ⟨v, hv, hvlen, hk⟩ := ih _ k u t hk
          exact ⟨v, hv.trans hu, by omega, hk⟩
        · exact ⟨u, hu, hulen, hk⟩
      by_cases hmost : most = some 0
      · subst hmost
        rw [upTo_zero_budget] at hm
        exact consumes_zero_of_continuation hm
      · rw [upTo] at hm
        · cases greedy with
          | true =>
              rcases some_of_orElse hm with hm | hm
              · exact hmore t hm
              · exact consumes_zero_of_continuation hm
          | false =>
              rcases some_of_orElse hm with hm | hm
              · exact consumes_zero_of_continuation hm
              · exact hmore t hm
        · exact hmost

end Matcher

/-- **A match consumes the least length of its pattern**, and leaves an end of
the text. -/
theorem Pattern.consumes_run
    (p : Pattern) :
    Matcher.Consumes p.minLength p.run := by
  induction p with
  | empty => exact fun k s t hk => Matcher.consumes_zero_of_continuation hk
  | one set =>
      intro k s t hm
      obtain ⟨u, hu, hk⟩ := Option.bind_eq_some_iff.mp hm
      cases hrest : s.rest with
      | nil => simp [State.step?, hrest] at hu
      | cons c rest =>
          simp only [State.step?, hrest] at hu
          split at hu
          · cases hu
            exact ⟨_, List.suffix_cons c rest, by simp [minLength], hk⟩
          · cases hu
  | anchor a =>
      intro k s t hm
      simp only [run] at hm
      split at hm
      · exact Matcher.consumes_zero_of_continuation hm
      · cases hm
  | seq p q ihp ihq => exact ihp.comp ihq
  | alt p q ihp ihq =>
      intro k s t hm
      rcases some_of_orElse hm with hm | hm
      · exact ihp.mono (Nat.min_le_left _ _) k s t hm
      · exact ihq.mono (Nat.min_le_right _ _) k s t hm
  | group index p ih =>
      intro k s t hm
      obtain ⟨u, hu, hulen, hk⟩ := ih _ s t hm
      exact ⟨s.remember index u, hu, hulen, hk⟩
  | times greedy least most p ih =>
      intro k s t hm
      obtain ⟨u, hu, hulen, hk⟩ := Matcher.consumes_exactly ih least _ s t hm
      obtain ⟨v, hv, hvlen, hk⟩ :=
        Matcher.consumes_upTo (ih.mono (Nat.zero_le _)) greedy _ _ k u t hk
      exact ⟨v, hv.trans hu, by simp only [minLength]; omega, hk⟩

variable {r : Regex} {text : Text} {found : Match}

/-- What a match leaves is an end of the text, shorter by at least the least
length. -/
theorem match?_rest
    (h : r.match? text = some found) :
    found.rest <:+ text ∧
      found.rest.length + r.pattern.minLength ≤ text.length := by
  obtain ⟨s, hs, rfl⟩ := Option.map_eq_some_iff.mp h
  obtain ⟨u, hu, hlen, hk⟩ := r.pattern.consumes_run some _ s hs
  cases hk
  exact ⟨hu, hlen⟩

end ParserAlgebra.Regex
