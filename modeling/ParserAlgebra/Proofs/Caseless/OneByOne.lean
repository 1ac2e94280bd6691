import ParserAlgebra.Proofs.Caseless.Letters
import ParserAlgebra.Proofs.Sequence.Concatenation
/-!
# A text matched at once or one by one

The parser for a text without regard to case compares the whole text in lower case with
as much of the input.  It can also be matched by parsers for its code points in a row.
These compare each code point with one of the input, and their outputs joined are the
same part of the input.

The two agree wherever lower case works on each code point for itself, and this fails
for two reasons only: the dotted capital has a longer form, and a sigma has another form
at the end of a word (`caseless_against_each`).
-/

namespace ParserAlgebra

open CodePoint (dottedCapitalI capitalSigma smallSigma finalSigma)

namespace Reply

/-- The reply of the parser for a code point in a row, if `w` was read before it. -/
def afterText (w : Text) (c : CodePoint) : (rest : Text) → Reply
  | [] => .failure (Text.call "charI" [c]) []
  | d :: rest =>
    if d.lower = c.lower then .success (.text (w ++ [d])) rest
    else .failure (Text.call "charI" [c]) (d :: rest)

theorem afterText_of_eq {c d : CodePoint} (h : d.lower = c.lower) (w rest : Text) :
    afterText w c (d :: rest) = .success (.text (w ++ [d])) rest :=
  if_pos h

theorem afterText_of_ne {c d : CodePoint} (h : d.lower ≠ c.lower) (w rest : Text) :
    afterText w c (d :: rest) = .failure (Text.call "charI" [c]) (d :: rest) :=
  if_neg h

theorem append_afterText (w rest : Text) (c : CodePoint) :
    append Value.add (.success (.text w) rest) (afterText [] c rest) = .ok (afterText w c rest) := by
  cases rest with
  | nil => rfl
  | cons d rest =>
      simp only [afterText]
      split <;> rfl

end Reply

/-- The outcome of parsers for the code points of `v` in a row, if `w` was read before
them and `rest` is left: they read as many code points as `v` has, or one of them fails. -/
def AnswersEach (w v rest : Text) (o : Outcome Reply) : Prop :=
  ∃ r, o = .ok r ∧
    (r.isSuccess → r = .success (.text (w ++ rest.take v.length)) (rest.drop v.length)) ∧
    (r.isSuccess ↔ Text.lowerEach (rest.take v.length) = Text.lowerEach v)

namespace AnswersEach

variable {w v rest e t : Text} {c d : CodePoint} {o : Outcome Reply}

theorem nil (w rest : Text) : AnswersEach w [] rest (.ok (.success (.text w) rest)) := by
  refine ⟨_, rfl, fun _ => ?_, iff_of_true rfl rfl⟩
  rw [List.length_nil, List.take_zero, List.append_nil, List.drop_zero]

theorem of_failure (ho : o = .ok (.failure e t))
    (h : Text.lowerEach (rest.take v.length) ≠ Text.lowerEach v) : AnswersEach w v rest o := by
  refine ⟨_, ho, fun hr => ?_, iff_of_false Bool.false_ne_true h⟩
  cases hr

/-- The first code point is read and the others are where it ends, or it fails. -/
theorem of_afterText
    (hread : ∀ d rest', Reply.afterText w c rest = .success (.text (w ++ [d])) rest' →
      AnswersEach (w ++ [d]) v rest' o)
    (hfail : ∀ e t, Reply.afterText w c rest = .failure e t → o = .ok (.failure e t)) :
    AnswersEach w (c :: v) rest o := by
  cases rest with
  | nil => exact .of_failure (hfail _ _ rfl) (by simp [Text.lowerEach])
  | cons d rest =>
      by_cases hd : d.lower = c.lower
      · obtain ⟨r, rfl, hreply, hiff⟩ := hread d rest (Reply.afterText_of_eq hd w rest)
        refine ⟨r, rfl, fun hr => ?_, ?_⟩
        · rw [hreply hr, List.append_assoc]
          rfl
        · rw [hiff]
          simp [Text.lowerEach, hd]
      · exact .of_failure (hfail _ _ (Reply.afterText_of_ne hd w rest))
          (by simp [Text.lowerEach, hd])

end AnswersEach

namespace Grammar

variable {g : Grammar} {s : Settings} {limit : Nat} {p : Parser} {input w rest e t : Text}

/-- The whole text is compared. -/
theorem answers_caseless (g : Grammar) (s : Settings) (limit : Nat) (v input : Text) :
    ∃ r, (g.run s limit (.caseless v) input).outcome = .ok r ∧
      (r.isSuccess → r = .success (.text (input.take v.length)) (input.drop v.length)) ∧
      (r.isSuccess ↔ Text.lower (input.take v.length) = Text.lower v) := by
  rw [Parser.caseless, outcome_run_leaf, Leaf.run]
  split
  · next h => exact ⟨_, rfl, fun _ => rfl, iff_of_true rfl h⟩
  · next h =>
    refine ⟨_, rfl, fun hr => ?_, iff_of_false Bool.false_ne_true h⟩
    cases hr

theorem outcome_run_caselessChar (g : Grammar) (s : Settings) (limit : Nat) (c : CodePoint)
    (input : Text) :
    (g.run s limit (.caselessChar c) input).outcome = .ok (.afterText [] c input) := by
  rw [Parser.caselessChar, Parser.satisfy, outcome_run_leaf, Leaf.run.eq_def]
  cases input with
  | nil => rfl
  | cons d rest =>
      simp only [Text.lower_singleton_eq, beq_iff_eq]
      rfl

theorem outcome_run_add_of_failure (hp : (g.run s limit p input).outcome = .ok (.failure e t))
    (q : Parser) : (g.run s limit (p.add q) input).outcome = .ok (.failure e t) := by
  rw [Parser.add, outcome_run_append, hp]
  rfl

theorem outcome_run_add_caselessChar
    (hp : (g.run s limit p input).outcome = .ok (.success (.text w) rest)) (c : CodePoint) :
    (g.run s limit (p.add (.caselessChar c)) input).outcome = .ok (.afterText w c rest) := by
  rw [Parser.add, outcome_run_append, hp]
  simp only [Except.bind, Reply.isSuccess, if_true, Reply.rest, outcome_run_caselessChar,
    Reply.append_afterText]
  rfl

theorem outcome_foldl_add_of_failure (hp : (g.run s limit p input).outcome = .ok (.failure e t))
    (qs : List Parser) :
    (g.run s limit (qs.foldl Parser.add p) input).outcome = .ok (.failure e t) := by
  induction qs generalizing p with
  | nil => exact hp
  | cons q qs ih => exact ih (outcome_run_add_of_failure hp q)

/-- By induction on the code points that come after the one that was tried last. -/
theorem answersEach_foldl {c : CodePoint}
    (hp : (g.run s limit p input).outcome = .ok (.afterText w c rest)) (cs : Text) :
    AnswersEach w (c :: cs) rest
      (g.run s limit ((cs.map Parser.caselessChar).foldl Parser.add p) input).outcome := by
  induction cs generalizing p w c rest with
  | nil =>
      refine .of_afterText (fun d rest' hread => ?_) fun e t hfail => ?_
      · rw [List.map_nil, List.foldl_nil, hp, hread]
        exact .nil _ rest'
      · rw [List.map_nil, List.foldl_nil, hp, hfail]
  | cons c' cs ih =>
      refine .of_afterText (fun d rest' hread => ?_) fun e t hfail => ?_
      · rw [hread] at hp
        exact ih (outcome_run_add_caselessChar hp c')
      · rw [hfail] at hp
        exact outcome_foldl_add_of_failure hp _

theorem mapM_caselessCharOf (v : Text) :
    (v.mapM fun c => Parser.caselessCharOf [c]) = .ok (v.map Parser.caselessChar) :=
  List.mapM_pure

/-- **A text matched at once or one by one.**  The parser for a text without regard to
case and the parsers for its code points in a row, with their outputs joined, always
give a reply, and a success of either one has as much of the input as its output as the
text is long.  If the parsers in a row succeed, then so does the one for the whole text,
unless a capital sigma at the end of a word stands against a small sigma.  If the one for
the whole text succeeds, then so do the parsers in a row, unless a dotted capital stands
against something else, or a capital sigma against the small sigma at the end of a
word. -/
theorem caseless_against_each (g : Grammar) (s : Settings) (limit : Nat) {v : Text} (hv : v ≠ [])
    (input : Text) :
    ∃ p q, Parser.caselessOf v = .ok p ∧
      (v.mapM fun c => Parser.caselessCharOf [c]) >>= Parser.assemble = .ok q ∧
      ∃ r r', (g.run s limit p input).outcome = .ok r ∧
        (g.run s limit q input).outcome = .ok r' ∧
        (r.isSuccess →
          r = .success (.text (input.take v.length)) (input.drop v.length)) ∧
        (r'.isSuccess →
          r' = .success (.text (input.take v.length)) (input.drop v.length)) ∧
        (r'.isSuccess → (r.isSuccess ↔
          ∀ i, Text.OpposedAt capitalSigma smallSigma (input.take v.length) v i →
            Text.endsWordAt (input.take v.length) i = false)) ∧
        (r.isSuccess → (r'.isSuccess ↔
          (∀ i : Nat, (input.take v.length)[i]? = some dottedCapitalI ↔
            v[i]? = some dottedCapitalI) ∧
          ∀ i, ¬ Text.OpposedAt capitalSigma finalSigma (input.take v.length) v i)) := by
  obtain ⟨c, cs, rfl⟩ := List.exists_cons_of_ne_nil hv
  have hbuilt : ((c :: cs).mapM fun d => Parser.caselessCharOf [d]) >>= Parser.assemble =
      .ok ((cs.map Parser.caselessChar).foldl Parser.add (.caselessChar c)) := by
    rw [mapM_caselessCharOf]
    rfl
  obtain ⟨r, hr, hreply, hlower⟩ := answers_caseless g s limit (c :: cs) input
  obtain ⟨r', hr', hreply', heach⟩ :=
    answersEach_foldl (outcome_run_caselessChar g s limit c input) cs
  refine ⟨_, _, rfl, hbuilt, r, r', hr, hr', hreply, hreply', fun hsuccess => ?_,
    fun hsuccess => ?_⟩
  · rw [hlower]
    exact Text.lower_eq_iff_of_lowerEach (heach.mp hsuccess)
  · rw [heach]
    exact Text.lowerEach_eq_iff_of_lower (hlower.mp hsuccess)

/-- Parsers for small letters match capitals one by one, also a sigma at the end of the
word, while the parser for the whole text fails there. -/
theorem smallSigma_one_by_one :
    let small : Text := [.ofChar 'α', smallSigma]
    let input : Text := [.ofChar 'Α', capitalSigma, .ofChar '!']
    small ≠ [] ∧ ∃ p q, Parser.caselessOf small = .ok p ∧
      (small.mapM fun c => Parser.caselessCharOf [c]) >>= Parser.assemble = .ok q ∧
      (∃ r, (({} : Grammar).run {} 0 p input).outcome = .ok r ∧ r.isSuccess = false) ∧
      (({} : Grammar).run {} 0 q input).outcome =
        .ok (.success (.text [.ofChar 'Α', capitalSigma]) [.ofChar '!']) := by
  intro small input
  have hfirst : CodePoint.lower (.ofChar 'Α') = CodePoint.lower (.ofChar 'α') := by
    decide +kernel
  have hsecond : capitalSigma.lower = smallSigma.lower := by decide +kernel
  have hend : Text.endsWordAt (input.take small.length) 1 = true := by decide +kernel
  obtain ⟨p, q, hp, hq, r, r', hr, hr', -, -, hiff, -⟩ :=
    caseless_against_each {} {} 0 (List.cons_ne_nil _ _ : small ≠ []) input
  have heach : (({} : Grammar).run {} 0 q input).outcome =
      .ok (.success (.text [.ofChar 'Α', capitalSigma]) [.ofChar '!']) := by
    obtain rfl := Except.ok.inj hq
    have hread := outcome_run_caselessChar {} {} 0 (.ofChar 'α') input
    rw [Reply.afterText_of_eq hfirst] at hread
    exact (outcome_run_add_caselessChar hread smallSigma).trans
      (congrArg Except.ok (Reply.afterText_of_eq hsecond _ _))
  refine ⟨List.cons_ne_nil _ _, p, q, hp, hq, ⟨r, hr, Bool.eq_false_iff.mpr fun hsuccess => ?_⟩,
    heach⟩
  obtain rfl := Except.ok.inj (hr'.symm.trans heach)
  have hinside := (hiff rfl).mp hsuccess 1 (.inl ⟨rfl, rfl⟩)
  cases hend.symm.trans hinside

/-- The parser for capitals matches small letters with a sigma at the end of the word,
while one by one they do not. -/
theorem finalSigma_at_once :
    let capitals : Text := [.ofChar 'Α', capitalSigma]
    let input : Text := [.ofChar 'α', finalSigma]
    ∃ p q, Parser.caselessOf capitals = .ok p ∧
      (capitals.mapM fun c => Parser.caselessCharOf [c]) >>= Parser.assemble = .ok q ∧
      (({} : Grammar).run {} 0 p input).outcome = .ok (.success (.text input) []) ∧
      (({} : Grammar).run {} 0 q input).outcome =
        .ok (.failure (Text.call "charI" [capitalSigma]) [finalSigma]) := by
  intro capitals input
  have hfirst : CodePoint.lower (.ofChar 'α') = CodePoint.lower (.ofChar 'Α') := by
    decide +kernel
  have hsecond : finalSigma.lower ≠ capitalSigma.lower := by decide +kernel
  have hboth : Text.lower input = Text.lower capitals := by decide +kernel
  refine ⟨_, _, rfl, rfl, congrArg Except.ok (if_pos hboth), ?_⟩
  have hread := outcome_run_caselessChar {} {} 0 (.ofChar 'Α') input
  rw [Reply.afterText_of_eq hfirst] at hread
  exact (outcome_run_add_caselessChar hread capitalSigma).trans
    (congrArg Except.ok (Reply.afterText_of_ne hsecond _ _))

end Grammar
end ParserAlgebra
