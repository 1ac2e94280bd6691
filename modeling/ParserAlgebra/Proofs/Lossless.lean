import ParserAlgebra.Parser.Choice
import ParserAlgebra.Proofs.Remainder.Run
/-!
# Text grammars lose nothing

A text grammar is made of leaves that output what they consume, of concatenation,
choice and repetition, and of lookaheads and labels, which are neutral.  Its
output is then the part of the input that was consumed, code point by code point:
output and rest together are the input, and a success whose output was thrown
away has consumed nothing.

* `Parser.Lossless`: the trees of text grammars, over recursive parsers of a given
  kind.  A list of texts is made by repetition, and is a text again when its items
  are joined, so a tree has one of two shapes.
* `Reply.Lossless`: what a tree of one shape does to a text.  There is one lemma
  for each way of putting replies together.
* `Grammar.run_lossless`: runs of text grammars lose nothing.
-/

namespace ParserAlgebra

/-- The shapes that the output of a part of a text grammar has. -/
inductive Shape where
  | text
  | texts

/-- The text that a value stands for, if it is one; what is no text stands for
nothing. -/
def Value.spelling : Value → Text
  | .text t => t
  | _ => []

/-- The value has the shape, and the text is what it stands for. -/
def Shape.Spells : Shape → Value → Text → Prop
  | text, v, t => v = .text t
  | texts, v, t => ∃ vs, v = .list vs ∧ (vs.map Value.spelling).flatten = t

/-- If all values are texts, then joined they are what the list stands for. -/
theorem Value.flatten_of_texts? {vs : List Value} {ts : List Text}
    (h : texts? vs = some ts) : ts.flatten = (vs.map spelling).flatten := by
  induction vs generalizing ts with
  | nil =>
      cases h
      rfl
  | cons v vs ih =>
      cases v with
      | text t =>
          obtain ⟨ts', hts', rfl⟩ := Option.map_eq_some_iff.mp h
          simp [spelling, ih hts']
      | _ => cases h

namespace Reply

/-- Output and rest are the input, and nothing is consumed without an output. -/
def Lossless (shape : Shape) (input : Text) : Reply → Prop
  | success v rest => ∃ t, shape.Spells v t ∧ t ++ rest = input
  | discarded rest => rest = input
  | failure _ _ => True

variable {input : Text} {r s u : Reply}

theorem Lossless.spelling_append (hr : r.Lossless .text input) {v : Value}
    {rest : Text} (h : r.accepted? = some (v, rest)) :
    v.spelling ++ rest = input := by
  cases r with
  | success w t =>
      cases h
      obtain ⟨t, rfl, ht⟩ := hr
      exact ht
  | discarded t =>
      cases h
      exact hr
  | failure expected t => cases h

/-- Two texts are concatenated where the first ends; an output that was thrown
away leaves the other one alone. -/
theorem Lossless.append (hr : r.Lossless .text input)
    (hs : s.Lossless .text r.rest) (h : r.append Value.add s = .ok u) :
    u.Lossless .text input := by
  cases r with
  | success v rest =>
      obtain ⟨t, rfl, ht⟩ := hr
      cases s with
      | success w rest' =>
          obtain ⟨t', rfl, ht'⟩ := hs
          cases h
          refine ⟨t ++ t', rfl, ?_⟩
          rw [List.append_assoc, ht']
          exact ht
      | discarded rest' =>
          cases h
          cases hs
          exact ⟨t, rfl, ht⟩
      | failure expected rest' =>
          cases h
          trivial
  | discarded rest =>
      cases h
      cases hr
      exact hs
  | failure expected rest =>
      cases h
      trivial

/-- Joining the items of a list keeps what they stand for. -/
theorem Lossless.map_join (hr : r.Lossless .texts input)
    (h : r.map Value.join = .ok u) : u.Lossless .text input := by
  cases r with
  | success v rest =>
      obtain ⟨t, ⟨vs, rfl, hvs⟩, ht⟩ := hr
      cases hts : Value.texts? vs with
      | none => simp [map, Value.join, hts, Bind.bind, Except.bind] at h
      | some ts =>
          simp only [map, Value.join, hts, Bind.bind, Except.bind, Pure.pure,
            Except.pure, Except.ok.injEq] at h
          subst h
          refine ⟨ts.flatten, rfl, ?_⟩
          rw [Value.flatten_of_texts? hts, hvs]
          exact ht
  | discarded rest => cases h
  | failure expected rest =>
      cases h
      trivial

/-- An item is put in front of a list that begins where the item ends. -/
theorem Lossless.map_cons {v : Value} {rest : Text}
    (hv : v.spelling ++ rest = input) (hs : s.Lossless .texts rest)
    (h : s.map v.cons = .ok u) : u.Lossless .texts input := by
  cases s with
  | success w rest' =>
      obtain ⟨t, ⟨vs, rfl, hvs⟩, ht⟩ := hs
      cases h
      refine ⟨v.spelling ++ t, ⟨v :: vs, rfl, ?_⟩, ?_⟩
      · rw [List.map_cons, List.flatten_cons, hvs]
      · rw [List.append_assoc, ht]
        exact hv
  | discarded rest' => cases h
  | failure expected rest' =>
      cases h
      trivial

theorem withRest_rest (r : Reply) : r.withRest r.rest = r := by
  cases r <;> rfl

end Reply

namespace Leaf

/-- The leaf outputs the text that it consumes, or consumes nothing. -/
def Lossless : Leaf → Prop
  | pure v => v = .text []
  | succeed => True
  | fail _ => True
  | satisfy _ _ => True
  | literal _ => True
  | caseless _ => True
  | takeWhile _ => True
  | takeWhile1 _ _ => True
  | endOfInput => True
  | _ => False

theorem Lossless.of_run {l : Leaf} (hl : l.Lossless) {input : Text} {r : Reply}
    (h : l.run input = .ok r) : r.Lossless .text input := by
  cases l with
  | pure v =>
      cases h
      cases hl
      exact ⟨[], rfl, rfl⟩
  | succeed =>
      cases h
      rfl
  | fail label =>
      cases h
      trivial
  | satisfy p label =>
      cases input with
      | nil =>
          cases h
          trivial
      | cons c rest =>
          simp only [run, Except.ok.injEq] at h
          split at h
          · subst h
            exact ⟨[c], rfl, rfl⟩
          · subst h
            trivial
  | literal text =>
      simp only [run] at h
      split at h
      · next rest hstrip =>
        cases h
        exact ⟨text, rfl, (Text.strip?_eq_some_iff.mp hstrip).symm⟩
      · cases h
        trivial
  | caseless text =>
      simp only [run, Except.ok.injEq] at h
      split at h
      · subst h
        exact ⟨_, rfl, List.take_append_drop _ input⟩
      · subst h
        trivial
  | takeWhile p =>
      cases h
      exact ⟨_, rfl, List.takeWhile_append_dropWhile⟩
  | takeWhile1 p label =>
      simp only [run, Except.ok.injEq] at h
      split at h
      · subst h
        trivial
      · subst h
        exact ⟨_, rfl, List.takeWhile_append_dropWhile⟩
  | endOfInput =>
      simp only [run, Except.ok.injEq] at h
      split at h
      · subst h
        rfl
      · subst h
        trivial
  | _ => cases hl

end Leaf

/-- A repetition loses nothing if its steps do not.  The output of the attempt
that stops it is dropped with what it has consumed, which is nothing. -/
theorem chain_yields_lossless {step : Text → Run Reply}
    (h : ∀ t, (step t).Yields (Reply.Lossless .text t)) (bound : Nat)
    (input : Text) :
    (chain step bound input).Yields fun found =>
      (found.1.map Value.spelling).flatten ++ found.2 = input := by
  induction bound generalizing input with
  | zero =>
      exact Run.yields_bind (h input) fun _ _ => Run.yields_pure rfl
  | succ bound ih =>
      refine Run.yields_bind (h input) fun r hr => ?_
      split
      · next v rest hvrest =>
        split
        · refine Run.yields_bind (ih rest) fun found hfound => Run.yields_pure ?_
          rw [List.map_cons, List.flatten_cons, List.append_assoc, hfound]
          exact hr.spelling_append hvrest
        · exact Run.yields_pure rfl
      · exact Run.yields_pure rfl

namespace Parser

/-- Text grammars over the cells `C`, with the shape of their outputs.  What a
negative lookahead looks for may be any parser. -/
inductive Lossless (C : Nat → Prop) : Shape → Parser → Prop
  | leaf {l : Leaf} (h : l.Lossless) : Lossless C .text (leaf l)
  | orElse {shape : Shape} {p q : Parser} (hp : Lossless C shape p)
      (hq : Lossless C shape q) : Lossless C shape (orElse p q)
  | label {shape : Shape} {p : Parser} (text : Text) (hp : Lossless C shape p) :
      Lossless C shape (label text p)
  | add {p q : Parser} (hp : Lossless C .text p) (hq : Lossless C .text q) :
      Lossless C .text (p.add q)
  | notBefore {shape : Shape} {p : Parser} (hp : Lossless C shape p)
      (q : Parser) : Lossless C shape (p.notBefore q)
  | notFollowedBy (q : Parser) : Lossless C .text (notFollowedBy q)
  | join {p : Parser} (hp : Lossless C .texts p) :
      Lossless C .text (map p Value.join)
  | cell {id : Nat} (h : C id) : Lossless C .text (cell id)
  | none : Lossless C .texts (pure (.list []))
  | many {p : Parser} (hp : Lossless C .text p) : Lossless C .texts (many p)
  | prepend {p q : Parser} (hp : Lossless C .text p)
      (hq : Lossless C .texts q) : Lossless C .texts (p.prepend q)

section Forms

variable {C : Nat → Prop} {shape : Shape} {p q : Parser} {ps : List Parser}

theorem Lossless.optional (hp : Lossless C .text p) :
    Lossless C .text p.optional :=
  .orElse hp (.leaf rfl)

theorem Lossless.atLeastOne (hp : Lossless C .text p) :
    Lossless C .texts p.atLeastOne :=
  .prepend hp (.many hp)

theorem Lossless.collect (hps : ∀ q ∈ ps, Lossless C .text q) :
    Lossless C .texts (Parser.collect ps) := by
  induction ps with
  | nil => exact .none
  | cons p ps ih =>
      obtain ⟨hp, hps⟩ := List.forall_mem_cons.mp hps
      exact .prepend hp (ih hps)

theorem Lossless.replicate (n : Nat) (hp : Lossless C .text p) :
    Lossless C .texts (p.replicate n) :=
  .collect fun _ hq => List.eq_of_mem_replicate hq ▸ hp

/-- Folding text grammars together gives one if joining two of them does. -/
theorem Lossless.foldl {joined : Parser → Parser → Parser}
    (hjoined : ∀ {p q : Parser}, Lossless C shape p → Lossless C shape q →
      Lossless C shape (joined p q))
    (hp : Lossless C shape p) (hps : ∀ q ∈ ps, Lossless C shape q) :
    Lossless C shape (ps.foldl joined p) := by
  induction ps generalizing p with
  | nil => exact hp
  | cons q ps ih =>
      obtain ⟨hq, hps⟩ := List.forall_mem_cons.mp hps
      exact ih (hjoined hp hq) hps

theorem Lossless.of_choice (ps : List Parser) (h : choice ps = .ok p)
    (hps : ∀ q ∈ ps, Lossless C shape q) : Lossless C shape p := by
  cases ps with
  | nil => cases h
  | cons q ps =>
      cases h
      obtain ⟨hq, hps⟩ := List.forall_mem_cons.mp hps
      exact .foldl .orElse hq hps

theorem Lossless.of_assemble (ps : List Parser) (h : assemble ps = .ok p)
    (hps : ∀ q ∈ ps, Lossless C .text q) : Lossless C .text p := by
  cases ps with
  | nil => cases h
  | cons q ps =>
      cases h
      obtain ⟨hq, hps⟩ := List.forall_mem_cons.mp hps
      exact .foldl .add hq hps

end Forms

variable {settings : Settings} {enter : Nat → Text → Run Reply}

/-- A negative lookahead succeeds without an output where it stands. -/
theorem notFollowedBy_yields (q : Parser) (input : Text) :
    (q.notFollowedBy.eval settings enter input).Yields fun r =>
      r.isSuccess → r = .discarded input := by
  refine Run.yields_emit_bind ?_
  refine Run.yields_bind (P := fun _ => True) (fun _ _ => trivial) fun r _ => ?_
  refine Run.yields_pure ?_
  split
  · intro h
    cases h
  · exact fun _ => rfl

/-- Text grammars lose nothing if the cells in them do not. -/
theorem eval_yields_lossless {C : Nat → Prop} {shape : Shape} {p : Parser}
    (henter : ∀ id, C id → ∀ t, (enter id t).Yields (Reply.Lossless .text t))
    (h : Lossless C shape p) (input : Text) :
    (p.eval settings enter input).Yields (Reply.Lossless shape input) := by
  induction h generalizing input with
  | leaf hl =>
      refine Run.yields_emit_bind ?_
      exact fun r hr => hl.of_run hr
  | orElse _ _ ihp ihq => exact orElse_yields (ihp input) (ihq input)
  | label text _ ih => exact label_yields (fun r hr _ => ih input r hr) trivial
  | add _ _ ihp ihq =>
      refine Run.yields_emit_bind (Run.yields_bind (ihp input) fun r hr => ?_)
      split
      · refine Run.yields_bind (ihq r.rest) fun s hs => ?_
        exact Run.yields_ofExcept fun u hu => hr.append hs hu
      · exact Run.yields_pure hr
  | notBefore _ q ih =>
      refine Run.yields_emit_bind (Run.yields_bind (ih input) fun r hr => ?_)
      split
      · refine Run.yields_bind (notFollowedBy_yields q r.rest) fun s hs => ?_
        refine Run.yields_pure ?_
        split
        · next hsucc =>
          rw [hs hsucc]
          show (r.withRest r.rest).Lossless _ input
          rw [Reply.withRest_rest]
          exact hr
        · next hfail =>
          cases s with
          | failure expected rest => trivial
          | success v rest => exact absurd rfl hfail
          | discarded rest => exact absurd rfl hfail
      · exact Run.yields_pure hr
  | notFollowedBy q =>
      intro r hr
      have hsucc := notFollowedBy_yields q input r hr
      cases r with
      | failure expected rest => trivial
      | success v rest => cases hsucc rfl
      | discarded rest =>
          cases hsucc rfl
          rfl
  | join _ ih =>
      refine Run.yields_emit_bind (Run.yields_bind (ih input) fun r hr => ?_)
      exact Run.yields_ofExcept fun u hu => hr.map_join hu
  | cell hid => exact Run.yields_emit_bind (henter _ hid input)
  | none =>
      refine Run.yields_emit_bind ?_
      intro r hr
      cases hr
      exact ⟨[], ⟨[], rfl, rfl⟩, rfl⟩
  | many _ ih =>
      have hchain := chain_yields_lossless ih input.length input
      refine Run.yields_emit_bind (Run.yields_bind hchain fun found hfound => ?_)
      exact Run.yields_pure ⟨_, ⟨_, rfl, rfl⟩, hfound⟩
  | @prepend p q _ _ ihp ihq =>
      have hlist : ∀ (v : Value) (rest : Text), v.spelling ++ rest = input →
          ((q.map v.cons).eval settings enter rest).Yields
            (Reply.Lossless .texts input) := by
        intro v rest hv
        refine Run.yields_emit_bind ?_
        refine Run.yields_bind (ihq rest) fun s hs => ?_
        exact Run.yields_ofExcept fun u hu => hs.map_cons hv hu
      refine Run.yields_emit_bind (Run.yields_bind (ihp input) fun r hr => ?_)
      cases r with
      | success v rest => exact hlist v rest (hr.spelling_append rfl)
      | discarded rest => exact hlist .nothing rest (hr.spelling_append rfl)
      | failure expected rest => exact Run.yields_pure trivial

end Parser

namespace Grammar

variable {g : Grammar} {C : Nat → Prop} {settings : Settings} {p : Parser}

theorem enter_yields_lossless
    (hcells : ∀ id definition, C id → g.cells[id]? = some (some definition) →
      definition.Lossless C .text)
    (limit : Nat) {id : Nat} (hid : C id) (input : Text) :
    (g.enter settings limit id input).Yields (Reply.Lossless .text input) := by
  induction limit generalizing id input with
  | zero =>
      intro r hr
      cases hr
  | succ limit ih =>
      simp only [enter]
      split
      · next definition hcell =>
        have hdefinition := hcells id definition hid hcell
        exact Parser.eval_yields_lossless (fun _ hid' t => ih hid' t) hdefinition
          input
      · intro r hr
        cases hr

/-- **Text grammars lose nothing.**  If a text grammar, whose recursive parsers
are defined by text grammars, succeeds with an output, then this is a text, and
the rest after it is the input.  If it succeeds without an output, then the rest
is the input. -/
theorem run_lossless
    (hcells : ∀ id definition, C id → g.cells[id]? = some (some definition) →
      definition.Lossless C .text)
    (hp : p.Lossless C .text) {limit : Nat} {input : Text} {r : Reply}
    (h : (g.run settings limit p input).outcome = .ok r) :
    (∀ v rest, r = .success v rest → ∃ o, v = .text o ∧ o ++ rest = input) ∧
    ∀ rest, r = .discarded rest → rest = input := by
  have hlossless : r.Lossless .text input :=
    Parser.eval_yields_lossless
      (fun _ hid t => enter_yields_lossless hcells limit hid t) hp input r h
  constructor
  · rintro v rest rfl
    exact hlossless
  · rintro rest rfl
    exact hlossless

/-- Cell 0 is a word, a number of two digits with or without a sign, or any of
these in a row in parentheses. -/
def nested : Grammar where
  cells := [some
    ((((Parser.char '(').add ((Parser.cell 0).many.map Value.join)).add
        (.char ')')).orElse (Parser.letter.atLeastOne.map Value.join) |>.orElse
      (((Parser.char '-').optional.add ((Parser.digit.replicate 2).map
        Value.join)).notBefore .digit))]

/-- What stands in nested parentheses comes out as it stood there. -/
theorem nested_lossless :
    (nested.run {} 8 (.cell 0) "(a(-12)(bc))d").outcome =
      .ok (.success (.text "(a(-12)(bc))") "d") ∧
    ∃ o, Value.text "(a(-12)(bc))" = .text o ∧
      o ++ Text.ofString "d" = Text.ofString "(a(-12)(bc))d" := by
  have hcode : ∀ p text,
      (Parser.satisfy p text).Lossless (fun id => id = 0) .text :=
    fun _ _ => .leaf trivial
  have hrow : (((Parser.char '(').add ((Parser.cell 0).many.map Value.join)).add
      (.char ')')).Lossless (fun id => id = 0) .text := by
    refine .of_assemble [_, _, _] rfl ?_
    simp only [List.forall_mem_cons]
    exact ⟨hcode _ _, .join (.many (.cell rfl)), hcode _ _, by simp⟩
  have hword : (Parser.letter.atLeastOne.map Value.join).Lossless
      (fun id => id = 0) .text := .join (.atLeastOne (hcode _ _))
  have hnumber : (((Parser.char '-').optional.add ((Parser.digit.replicate 2).map
      Value.join)).notBefore .digit).Lossless (fun id => id = 0) .text :=
    .notBefore (.add (.optional (hcode _ _)) (.join (.replicate 2 (hcode _ _)))) _
  have hcells : ∀ id definition, id = 0 →
      nested.cells[id]? = some (some definition) →
      definition.Lossless (fun id => id = 0) .text := by
    rintro _ definition rfl hcell
    cases hcell
    refine .of_choice [_, _, _] rfl ?_
    simp only [List.forall_mem_cons]
    exact ⟨hrow, hword, hnumber, by simp⟩
  have hrun : (nested.run {} 8 (.cell 0) "(a(-12)(bc))d").outcome =
      .ok (.success (.text "(a(-12)(bc))") "d") := rfl
  exact ⟨hrun, (run_lossless hcells (.cell rfl) hrun).1 _ _ rfl⟩

end Grammar

end ParserAlgebra
