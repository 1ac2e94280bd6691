import ParserAlgebra.Parser.Repetition
import ParserAlgebra.Proofs.Repetition
import ParserAlgebra.Proofs.Run.Conclusion
/-!
# Repetition a fixed number of times

A repetition with a count has no test for progress.  Up to the end of the maximal chain
it goes along with the repetition without a count, because both run the parser on the
same texts.  Beyond that, everything depends on what the parser does at the last text:
a failure there is the failure of the whole, and a success that leaves that very text is
repeated for the rest of the count.

* `concludes_replicate_of_le`: along the chain.
* `concludes_replicate_of_failure`, `concludes_replicate_of_stays`: beyond it.
* `repetitions_agree`: these, and the repetition at least once, for every text.
-/

namespace ParserAlgebra

namespace Grammar

variable {g : Grammar} {s : Settings} {p : Parser} {input e t : Text} {r : Reply}
variable {v : Value} {links : List (Value × Text)}

theorem concludes_replicate_zero (input : Text) :
    g.Concludes s (.replicate 0 p) input (.ok (.success (.list []) input)) :=
  concludes_leaf rfl

/-- As many times as there are links, or fewer. -/
theorem concludes_replicate_of_le (h : MaximalChain (g.Returns s p) input links) {n : Nat}
    (hn : n ≤ links.length) :
    g.Concludes s (.replicate n p) input
      (.ok (.success (.list ((links.take n).map Prod.fst))
        (lastRest input (links.take n)))) := by
  induction h generalizing n with
  | done =>
      obtain rfl := Nat.le_zero.mp hn
      exact concludes_replicate_zero _
  | more hreply haccept _ _ ih =>
      cases n with
      | zero => exact concludes_replicate_zero _
      | succ n =>
          have hrest := ih (Nat.le_of_succ_le_succ hn)
          exact concludes_prepend (concludes_ok_iff.mpr hreply) haccept hrest

/-- More times, where the parser fails at the last text. -/
theorem concludes_replicate_of_failure (h : MaximalChain (g.Returns s p) input links)
    (hlast : g.Returns s p (lastRest input links) (.failure e t)) {n : Nat}
    (hn : links.length < n) :
    g.Concludes s (.replicate n p) input (.ok (.failure e t)) := by
  induction h generalizing n with
  | done =>
      obtain ⟨n, rfl⟩ := Nat.exists_eq_add_of_lt hn
      exact concludes_prepend_of_failure (concludes_ok_iff.mpr hlast)
  | more hreply haccept _ _ ih =>
      cases n with
      | zero => exact absurd hn (Nat.not_lt_zero _)
      | succ n =>
          have hrest := ih hlast (Nat.lt_of_succ_lt_succ hn)
          exact concludes_prepend_of_failure_right (concludes_ok_iff.mpr hreply) haccept hrest

/-- A parser that leaves the text as it is can be repeated any number of times. -/
theorem concludes_replicate_of_self (hreply : g.Returns s p input r)
    (haccept : r.accepted? = some (v, input)) (n : Nat) :
    g.Concludes s (.replicate n p) input
      (.ok (.success (.list (List.replicate n v)) input)) := by
  induction n with
  | zero => exact concludes_replicate_zero input
  | succ n ih => exact concludes_prepend (concludes_ok_iff.mpr hreply) haccept ih

/-- More times, where the parser takes nothing off the last text. -/
theorem concludes_replicate_of_stays (h : MaximalChain (g.Returns s p) input links)
    (hlast : g.Returns s p (lastRest input links) r)
    (haccept : r.accepted? = some (v, lastRest input links)) {n : Nat}
    (hn : links.length ≤ n) :
    g.Concludes s (.replicate n p) input
      (.ok (.success (.list (links.map Prod.fst ++ List.replicate (n - links.length) v))
        (lastRest input links))) := by
  induction h generalizing n with
  | done => exact concludes_replicate_of_self hlast haccept n
  | more hreply haccept' _ _ ih =>
      cases n with
      | zero => exact absurd hn (Nat.not_succ_le_zero _)
      | succ n =>
          have hrest := ih hlast haccept (Nat.le_of_succ_le_succ hn)
          rw [List.length_cons, Nat.add_sub_add_right]
          exact concludes_prepend (concludes_ok_iff.mpr hreply) haccept' hrest

/-- A success at the last text takes nothing off it, if what it leaves is an end of it. -/
theorem eq_lastRest_of_suffix {rest : Text} (h : MaximalChain (g.Returns s p) input links)
    (hlast : g.Returns s p (lastRest input links) r)
    (haccept : r.accepted? = some (v, rest)) (hsuffix : r.rest <:+ lastRest input links) :
    rest = lastRest input links := by
  obtain ⟨r', hreply, hstalls⟩ := h.at_lastRest
  obtain rfl := hlast.eq hreply
  rw [Reply.rest_of_accepted? haccept] at hsuffix
  exact hsuffix.eq_of_length_le (hstalls v rest haccept)

/-- At least once is any number of times, where the chain has a link. -/
theorem concludes_atLeastOne_of_ne_nil (h : MaximalChain (g.Returns s p) input links)
    (hlinks : links ≠ []) :
    g.Concludes s p.atLeastOne input
      (.ok (.success (.list (links.map Prod.fst)) (lastRest input links))) := by
  cases h with
  | done => exact absurd rfl hlinks
  | more hreply haccept _ hrest =>
      exact concludes_prepend (concludes_ok_iff.mpr hreply) haccept (concludes_many hrest)

/-- How the repetitions of a parser relate on a text from which its chain is `links`. -/
structure RepetitionsAgree (g : Grammar) (s : Settings) (p : Parser) (input : Text)
    (links : List (Value × Text)) : Prop where
  chain : MaximalChain (g.Returns s p) input links
  many : g.Concludes s p.many input
    (.ok (.success (.list (links.map Prod.fst)) (lastRest input links)))
  /-- Up to the length of the chain, a count takes as many links. -/
  along : ∀ n ≤ links.length, g.Concludes s (.replicate n p) input
    (.ok (.success (.list ((links.take n).map Prod.fst)) (lastRest input (links.take n))))
  whole : g.Concludes s (.replicate links.length p) input
    (.ok (.success (.list (links.map Prod.fst)) (lastRest input links)))
  /-- A failure at the last text is that of every greater count. -/
  failure : ∀ e t, g.Returns s p (lastRest input links) (.failure e t) →
    ∀ n, links.length < n → g.Concludes s (.replicate n p) input (.ok (.failure e t))
  /-- A success at the last text takes nothing off it, and is repeated. -/
  success : ∀ r v rest, g.Returns s p (lastRest input links) r →
    r.accepted? = some (v, rest) → rest = lastRest input links ∧
      ∀ n, links.length < n → g.Concludes s (.replicate n p) input
        (.ok (.success (.list (links.map Prod.fst ++ List.replicate (n - links.length) v))
          (lastRest input links)))
  atLeastOne : links ≠ [] → g.Concludes s p.atLeastOne input
    (.ok (.success (.list (links.map Prod.fst)) (lastRest input links)))
  /-- Without a link, at least once is once. -/
  once_failure : links = [] → ∀ e t, g.Returns s p input (.failure e t) →
    g.Concludes s p.atLeastOne input (.ok (.failure e t))
  once_success : links = [] → ∀ r v rest, g.Returns s p input r →
    r.accepted? = some (v, rest) → rest = input ∧
      g.Concludes s p.atLeastOne input (.ok (.success (.list [v]) input))

/-- **Repetitions agree.**  From every text, the repetitions of a parser that always
gives a reply, and leaves an end of its text, are the same up to the end of its chain,
and differ beyond it as the reply to the last text says. -/
theorem repetitions_agree (htotal : ∀ t, ∃ r, g.Returns s p t r)
    (hsuffix : ∀ t r, g.Returns s p t r → r.rest <:+ t) (input : Text) :
    (∀ n : Nat, Parser.replicateOf n p = .ok (.replicate n p)) ∧
      ∃ links, RepetitionsAgree g s p input links := by
  obtain ⟨links, hlinks⟩ := exists_maximalChain htotal input
  have hstays : ∀ r v rest, g.Returns s p (lastRest input links) r →
      r.accepted? = some (v, rest) → rest = lastRest input links := by
    intro r v rest hreply haccept
    exact eq_lastRest_of_suffix hlinks hreply haccept (hsuffix _ r hreply)
  refine ⟨fun n => if_neg (Int.not_lt.mpr (Int.natCast_nonneg n)), links, ?_⟩
  constructor
  case chain => exact hlinks
  case many => exact concludes_many hlinks
  case along => exact fun n hn => concludes_replicate_of_le hlinks hn
  case whole =>
    have hwhole := concludes_replicate_of_le hlinks (Nat.le_refl _)
    rwa [List.take_length] at hwhole
  case failure => exact fun e t hlast n hn => concludes_replicate_of_failure hlinks hlast hn
  case success =>
    intro r v rest hreply haccept
    obtain rfl := hstays r v rest hreply haccept
    exact ⟨rfl, fun n hn => concludes_replicate_of_stays hlinks hreply haccept (Nat.le_of_lt hn)⟩
  case atLeastOne => exact concludes_atLeastOne_of_ne_nil hlinks
  case once_failure =>
    intro _ e t hreply
    exact concludes_prepend_of_failure (concludes_ok_iff.mpr hreply)
  case once_success =>
    intro hnone r v rest hreply haccept
    subst hnone
    obtain rfl := hstays r v rest hreply haccept
    exact ⟨rfl, concludes_prepend (concludes_ok_iff.mpr hreply) haccept
      (concludes_many hlinks)⟩

/-- Letters that are taken all at once, and then none of them twice. -/
theorem takeWhile_repetitions :
    (∀ t, ∃ r, ({} : Grammar).Returns {} (.takeWhile (· == 'a')) t r) ∧
      (∀ t r, ({} : Grammar).Returns {} (.takeWhile (· == 'a')) t r → r.rest <:+ t) ∧
      ({} : Grammar).Concludes {} (Parser.takeWhile (· == 'a')).many "aab"
        (.ok (.success (.list [.text "aa"]) "b")) ∧
      ({} : Grammar).Concludes {} (.replicate 3 (.takeWhile (· == 'a'))) "aab"
        (.ok (.success (.list [.text "aa", .text "", .text ""]) "b")) := by
  have htotal : ∀ t, ∃ r, ({} : Grammar).Returns {} (.takeWhile (· == 'a')) t r :=
    fun t => ⟨_, 0, rfl⟩
  have hsuffix : ∀ t r, ({} : Grammar).Returns {} (.takeWhile (· == 'a')) t r →
      r.rest <:+ t := by
    intro t r ⟨limit, h⟩
    cases h
    exact List.dropWhile_suffix _
  obtain ⟨-, links, hagree⟩ := repetitions_agree htotal hsuffix "aab"
  have hchain : MaximalChain (({} : Grammar).Returns {} (.takeWhile (· == 'a'))) "aab"
      [(.text "aa", "b")] := by
    refine .more ⟨0, rfl⟩ rfl (by decide) (.done ⟨0, rfl⟩ ?_)
    intro v rest h
    cases h
    decide
  obtain rfl := hagree.chain.eq hchain fun _ _ _ => Returns.eq
  exact ⟨htotal, hsuffix, hagree.many,
    (hagree.success _ _ _ ⟨0, rfl⟩ rfl).2 3 (by decide)⟩

end Grammar

end ParserAlgebra
