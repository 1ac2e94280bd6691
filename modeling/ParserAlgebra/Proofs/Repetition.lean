import ParserAlgebra.Proofs.Run.Limit
/-!
# Repetition

A repetition goes on as long as its parser takes something off the text.  What it comes
to does not mention the loop: there is one longest chain of successes, each of which
leaves a text that is shorter than the one before (`MaximalChain`).

* `exists_maximalChain`: there is one from every text, by induction on its length, since
  each link makes the text shorter.
* `MaximalChain.eq`: and no other, since a parser gives one reply to a text.
* `chain_of_maximalChain`: the loop follows it, and runs the parser once on each of its
  texts.
* `Grammar.many_maximal`: hence a repetition always succeeds, whatever the parser leaves
  behind.
-/

namespace ParserAlgebra

/-- A repetition does not go on after the reply: it is a failure, or a success that takes
nothing off the text. -/
def Reply.Stalls (r : Reply) (input : Text) : Prop :=
  ∀ v rest, r.accepted? = some (v, rest) → input.length ≤ rest.length

/-- The outputs of a chain of successes, with the text that each of them leaves, up to
the first text at which the reply stalls. -/
inductive MaximalChain (R : Text → Reply → Prop) : Text → List (Value × Text) → Prop
  | done {input : Text} {r : Reply} (hreply : R input r) (hstalls : r.Stalls input) :
      MaximalChain R input []
  | more {input rest : Text} {r : Reply} {v : Value} {links : List (Value × Text)}
      (hreply : R input r) (haccept : r.accepted? = some (v, rest))
      (hlength : rest.length < input.length) (hrest : MaximalChain R rest links) :
      MaximalChain R input ((v, rest) :: links)

/-- The text that is left after a chain from `input`. -/
def lastRest : (input : Text) → List (Value × Text) → Text
  | input, [] => input
  | _, (_, rest) :: links => lastRest rest links

section

variable {R R' : Text → Reply → Prop} {input : Text} {links links' : List (Value × Text)}

theorem Reply.stalls_or_accepts (r : Reply) (input : Text) :
    r.Stalls input ∨ ∃ v rest, r.accepted? = some (v, rest) ∧ rest.length < input.length := by
  rcases r.fails_or_accepts with ⟨e, t, rfl⟩ | ⟨v, rest, haccept⟩
  · left
    intro v rest h
    cases h
  · by_cases hlength : rest.length < input.length
    · exact .inr ⟨v, rest, haccept, hlength⟩
    · left
      intro v' rest' h
      rw [haccept] at h
      cases h
      exact Nat.not_lt.mp hlength

/-- Each link takes something off the text. -/
theorem MaximalChain.length_le (h : MaximalChain R input links) :
    links.length ≤ input.length := by
  induction h with
  | done => exact Nat.zero_le _
  | more _ _ hlength _ ih =>
      rw [List.length_cons]
      omega

theorem MaximalChain.at_lastRest (h : MaximalChain R input links) :
    ∃ r, R (lastRest input links) r ∧ r.Stalls (lastRest input links) := by
  induction h with
  | done hreply hstalls => exact ⟨_, hreply, hstalls⟩
  | more _ _ _ _ ih => exact ih

/-- Where each text has a reply, there is a chain. -/
theorem exists_maximalChain (htotal : ∀ t, ∃ r, R t r) (input : Text) :
    ∃ links, MaximalChain R input links := by
  induction hn : input.length using Nat.strongRecOn generalizing input with
  | ind n ih =>
      obtain ⟨r, hreply⟩ := htotal input
      rcases r.stalls_or_accepts input with hstalls | ⟨v, rest, haccept, hlength⟩
      · exact ⟨[], .done hreply hstalls⟩
      · obtain ⟨links, hlinks⟩ := ih rest.length (hn ▸ hlength) rest rfl
        exact ⟨(v, rest) :: links, .more hreply haccept hlength hlinks⟩

/-- Where no text has two replies, the chain is one only. -/
theorem MaximalChain.eq (h : MaximalChain R input links)
    (h' : MaximalChain R input links') (hR : ∀ t r r', R t r → R t r' → r = r') :
    links = links' := by
  induction h generalizing links' with
  | done hreply hstalls =>
      cases h' with
      | done => rfl
      | more hreply' haccept' hlength' =>
          obtain rfl := hR _ _ _ hreply hreply'
          exact absurd (hstalls _ _ haccept') (Nat.not_le.mpr hlength')
  | more hreply haccept hlength _ ih =>
      cases h' with
      | done hreply' hstalls' =>
          obtain rfl := hR _ _ _ hreply hreply'
          exact absurd (hstalls' _ _ haccept) (Nat.not_le.mpr hlength)
      | more hreply' haccept' _ hrest' =>
          obtain rfl := hR _ _ _ hreply hreply'
          rw [haccept] at haccept'
          cases haccept'
          rw [ih hrest']

variable {step : Text → Run Reply} {bound : Nat} {r : Reply}

/-- The loop stops at a reply that stalls. -/
theorem chain_of_stalls (hreply : (step input).outcome = .ok r) (hstalls : r.Stalls input) :
    chain step (bound + 1) input = step input >>= fun _ => pure ([], input) := by
  rw [chain]
  refine Run.bind_eq_bind_of_ok fun r' hr' => ?_
  rw [hreply] at hr'
  cases hr'
  cases haccept : r.accepted? with
  | none => rfl
  | some accepted =>
      obtain ⟨v, rest⟩ := accepted
      exact if_neg (Nat.not_lt.mpr (hstalls v rest haccept))

theorem chain_of_accepted? {v : Value} {rest : Text} (hreply : (step input).outcome = .ok r)
    (haccept : r.accepted? = some (v, rest)) (hlength : rest.length < input.length) :
    chain step (bound + 1) input = step input >>= fun _ => chain step bound rest >>=
      fun (vs, last) => pure (v :: vs, last) := by
  rw [chain]
  refine Run.bind_eq_bind_of_ok fun r' hr' => ?_
  rw [hreply] at hr'
  cases hr'
  simp only [haccept, if_pos hlength]

/-- The loop follows the chain, with one step at each of its texts. -/
theorem chain_of_maximalChain
    (h : MaximalChain (fun t r => (step t).outcome = .ok r) input links)
    (hbound : input.length ≤ bound) :
    (chain step bound input).outcome = .ok (links.map Prod.fst, lastRest input links) ∧
      (chain step bound input).events =
        (input :: links.map Prod.snd).flatMap fun t => (step t).events := by
  induction h generalizing bound with
  | @done input r hreply hstalls =>
      rw [← chain_succ_of_length_le step bound input hbound, chain_of_stalls hreply hstalls]
      constructor
      · rw [Run.outcome_bind, hreply]
        rfl
      · rw [Run.events_bind_of_ok hreply]
        simp
  | @more input rest r v links hreply haccept hlength _ ih =>
      obtain ⟨hloop, hevents⟩ := @ih bound (by omega)
      rw [← chain_succ_of_length_le step bound input hbound,
        chain_of_accepted? hreply haccept hlength]
      constructor
      · rw [Run.outcome_bind, hreply]
        simp only [Except.bind, Run.outcome_bind, hloop]
        rfl
      · rw [Run.events_bind_of_ok hreply, Run.events_bind_of_ok hloop, hevents]
        simp

end

namespace Grammar

variable {g : Grammar} {s : Settings} {p : Parser} {input : Text}
variable {links : List (Value × Text)}

/-- Finitely many replies are given within one limit. -/
theorem exists_limit_maximalChain (h : MaximalChain (g.Returns s p) input links) :
    ∃ enough, ∀ limit, enough ≤ limit →
      MaximalChain (fun t r => (g.run s limit p t).outcome = .ok r) input links := by
  induction h with
  | done hreply hstalls =>
      obtain ⟨enough, hreply⟩ := hreply
      exact ⟨enough, fun limit hle => .done (run_eq_ok_of_le hreply hle) hstalls⟩
  | more hreply haccept hlength _ ih =>
      obtain ⟨enough, hreply⟩ := hreply
      obtain ⟨enough', hrest⟩ := ih
      refine ⟨max enough enough', fun limit hle => ?_⟩
      have hreply' := run_eq_ok_of_le hreply (by omega : enough ≤ limit)
      exact .more hreply' haccept hlength (hrest limit (by omega))

/-- A repetition yields the outputs of the chain and what it leaves, and runs the parser
at each of its texts and nowhere else. -/
theorem run_many_of_maximalChain (h : MaximalChain (g.Returns s p) input links) :
    ∃ enough, ∀ limit, enough ≤ limit →
      (g.run s limit p.many input).outcome =
        .ok (.success (.list (links.map Prod.fst)) (lastRest input links)) ∧
      (g.run s limit p.many input).events = .entered p.many input ::
        (input :: links.map Prod.snd).flatMap fun t => (g.run s limit p t).events := by
  obtain ⟨enough, hlimit⟩ := exists_limit_maximalChain h
  refine ⟨enough, fun limit hle => ?_⟩
  obtain ⟨hloop, hevents⟩ := chain_of_maximalChain (hlimit limit hle) (Nat.le_refl _)
  have hrun : g.run s limit p.many input = (do
      Run.emit (.entered p.many input)
      let (vs, rest) ← chain (g.run s limit p) input.length input
      return .success (.list vs) rest) := rfl
  rw [hrun]
  constructor
  · simp only [Run.outcome_bind, Run.emit, Except.bind, hloop]
    rfl
  · rw [Run.events_bind_of_ok rfl, Run.events_bind_of_ok hloop, hevents]
    simp [Run.emit]

theorem concludes_many (h : MaximalChain (g.Returns s p) input links) :
    g.Concludes s p.many input
      (.ok (.success (.list (links.map Prod.fst)) (lastRest input links))) := by
  obtain ⟨enough, hrun⟩ := run_many_of_maximalChain h
  exact ⟨enough, fun limit hle => (hrun limit hle).1⟩

/-- **Repetition.**  From every text there is exactly one maximal chain of a parser that
always gives a reply.  A repetition yields its outputs and what it leaves, and never
fails; it runs the parser on the texts of the chain only, which are at most one more
than the text has code points; and where it stopped, it would take nothing more. -/
theorem many_maximal (htotal : ∀ t, ∃ r, g.Returns s p t r) (input : Text) :
    ∃ links, (∀ links', MaximalChain (g.Returns s p) input links' ↔ links' = links) ∧
      links.length ≤ input.length ∧
      (∃ enough, ∀ limit, enough ≤ limit →
        (g.run s limit p.many input).outcome =
          .ok (.success (.list (links.map Prod.fst)) (lastRest input links)) ∧
        (g.run s limit p.many input).events = .entered p.many input ::
          (input :: links.map Prod.snd).flatMap fun t => (g.run s limit p t).events) ∧
      g.Concludes s p.many (lastRest input links)
        (.ok (.success (.list []) (lastRest input links))) := by
  obtain ⟨links, hlinks⟩ := exists_maximalChain htotal input
  refine ⟨links, ?_, hlinks.length_le, run_many_of_maximalChain hlinks, ?_⟩
  · intro links'
    constructor
    · intro hlinks'
      exact hlinks'.eq hlinks fun _ _ _ => Returns.eq
    · intro heq
      rwa [heq]
  · obtain ⟨r, hreply, hstalls⟩ := hlinks.at_lastRest
    obtain ⟨enough, hrun⟩ := run_many_of_maximalChain (.done hreply hstalls)
    exact ⟨enough, fun limit hle => (hrun limit hle).1⟩

/-- Takes a letter off the text, or puts another one in front of it. -/
def pushing : Parser := .leaf (.custom fun input => .ok <|
  match Text.strip? "a" input with
  | some rest => .success (.text "a") rest
  | none => .success (.text "b") (Text.ofString "b" ++ input))

/-- A repetition stops where the text would get longer. -/
theorem pushing_many :
    (∀ t, ∃ r, ({} : Grammar).Returns {} pushing t r) ∧
      MaximalChain (({} : Grammar).Returns {} pushing) "aab"
        [(.text "a", "ab"), (.text "a", "b")] ∧
      ∃ enough, ∀ limit, enough ≤ limit →
        (({} : Grammar).run {} limit pushing.many "aab").outcome =
          .ok (.success (.list [.text "a", .text "a"]) "b") := by
  have htotal : ∀ t, ∃ r, ({} : Grammar).Returns {} pushing t r := fun t => ⟨_, 0, rfl⟩
  have hstalls : (Reply.success (.text "b") "bb").Stalls "b" := by
    intro v rest h
    cases h
    decide
  have hlinks : MaximalChain (({} : Grammar).Returns {} pushing) "aab"
      [(.text "a", "ab"), (.text "a", "b")] :=
    .more ⟨0, rfl⟩ rfl (by decide)
      (.more ⟨0, rfl⟩ rfl (by decide) (.done ⟨0, rfl⟩ hstalls))
  obtain ⟨links, hiff, -, ⟨enough, hrun⟩, -⟩ := many_maximal htotal "aab"
  obtain rfl := (hiff _).mp hlinks
  exact ⟨htotal, hlinks, enough, fun limit hle => (hrun limit hle).1⟩

end Grammar

end ParserAlgebra
