import ParserAlgebra.Proofs.Quotation
/-!
# Quoted strings in which nothing is escaped

Where the escape does not occur, a string with escapes is read as a plain one is.  The
two are read in different ways, one item by item and the other by one search, and what
they have in common is the first occurrence of the closing quote: the items go on as
long as the closing quote does not stand at their place, and the search finds it at the
first place where it stands (`Quotation.run_quoted_rawQuoted`).

Where a closing quote is empty, it stands at the first place; where it overlaps itself,
as `aa` does in `aaa`, the first occurrence is the one that begins first.
-/

namespace ParserAlgebra

namespace Text

/-- A text cut at the first occurrence of a mark. -/
structure IsFirstCut (mark text before rest : Text) : Prop where
  append_eq : before ++ (mark ++ rest) = text
  length_le : ∀ before' rest', before' ++ (mark ++ rest') = text →
    before.length ≤ before'.length

theorem isFirstCut_of_strip? {mark text rest : Text} (h : strip? mark text = some rest) :
    IsFirstCut mark text [] rest :=
  ⟨(strip?_eq_some_iff.mp h).symm, fun _ _ _ => Nat.zero_le _⟩

/-- A code point at which the mark does not stand does not change the cut. -/
theorem IsFirstCut.cons {mark text before rest : Text} {c : CodePoint}
    (h : IsFirstCut mark text before rest) (hmark : ¬ mark <+: c :: text) :
    IsFirstCut mark (c :: text) (c :: before) rest := by
  refine ⟨congrArg (c :: ·) h.append_eq, ?_⟩
  intro before' rest' heq
  cases before' with
  | nil => exact absurd ⟨rest', heq⟩ hmark
  | cons d before' =>
      have htext : before' ++ (mark ++ rest') = text := (List.cons.inj heq).2
      have hle := h.length_le before' rest' htext
      simp only [List.length_cons]
      omega

theorem isFirstCut_of_split? {mark text before rest : Text}
    (h : split? mark text = some (before, rest)) : IsFirstCut mark text before rest := by
  induction text generalizing before with
  | nil =>
      simp only [split?, Option.map_eq_some_iff, Prod.mk.injEq] at h
      obtain ⟨_, hstrip, rfl, rfl⟩ := h
      exact isFirstCut_of_strip? hstrip
  | cons c text ih =>
      simp only [split?] at h
      split at h
      · next hstrip =>
          cases h
          exact isFirstCut_of_strip? hstrip
      · next hstrip =>
          simp only [Option.map_eq_some_iff, Prod.mk.injEq] at h
          obtain ⟨⟨before, rest⟩, hsplit, rfl, rfl⟩ := h
          exact (ih hsplit).cons (strip?_eq_none_iff.mp hstrip)

theorem not_infix_of_split? {mark text : Text} (h : split? mark text = none) :
    ¬ mark <:+: text := by
  induction text with
  | nil =>
      rw [split?, Option.map_eq_none_iff, strip?_eq_none_iff] at h
      intro hfound
      rw [List.infix_nil] at hfound
      exact h (hfound ▸ List.nil_prefix)
  | cons c text ih =>
      simp only [split?] at h
      split at h
      · cases h
      · next hstrip =>
          rw [Option.map_eq_none_iff] at h
          rw [List.infix_cons_iff]
          rintro (hstart | hfound)
          · exact strip?_eq_none_iff.mp hstrip hstart
          · exact ih h hfound

theorem strip?_of_not_infix {start text : Text} (h : ¬ start <:+: text) :
    strip? start text = none :=
  strip?_eq_none_iff.mpr fun hstart => h hstart.isInfix

end Text

namespace Quotation

/-- The contents of a string in which nothing is escaped. -/
def plainContents (closing text : Text) : Contents :=
  match Text.split? closing text with
  | some (content, rest) => .closed content rest
  | none => .broken (unclosed closing) []

/-- What contents in which nothing is escaped are to a text. -/
inductive Closes (closing text : Text) : Reply → Prop
  /-- They go up to the first occurrence of the closing quote. -/
  | closed {content rest : Text} (hcut : Text.IsFirstCut closing text content rest) :
      Closes closing text (.success (.text content) rest)
  /-- Without one, the failure is at the end of the text. -/
  | unclosed (hclosing : ¬ closing <:+: text) :
      Closes closing text
        (.failure ("closing quote `" ++ closing ++ Text.ofString "`") [])

theorem closes_plainContents (closing text : Text) :
    Closes closing text (plainContents closing text).reply := by
  unfold plainContents
  split
  · next hsplit => exact .closed (Text.isFirstCut_of_split? hsplit)
  · next hsplit => exact .unclosed (Text.not_infix_of_split? hsplit)

/-- Where the escape does not occur, going on item by item comes to the first closing
quote. -/
theorem scan_eq_plainContents {q : Quotation} (closing : Text) {text : Text}
    (hescape : ¬ q.escape <:+: text) {bound : Nat} (hbound : text.length < bound) :
    q.scan closing bound text = .ok (plainContents closing text) := by
  induction text generalizing bound with
  | nil =>
      obtain ⟨bound, rfl⟩ := Nat.exists_eq_add_of_lt hbound
      have hstrip := Text.strip?_of_not_infix hescape
      simp only [scan, item, hstrip, plainContents, Text.split?]
      cases Text.strip? closing [] <;> rfl
  | cons c text ih =>
      cases bound with
      | zero => exact absurd hbound (Nat.not_lt_zero _)
      | succ bound =>
          have hstrip := Text.strip?_of_not_infix hescape
          have htail : ¬ q.escape <:+: text := by
            intro hfound
            exact hescape (List.infix_cons hfound)
          have hscan := ih htail (Nat.lt_of_succ_lt_succ hbound)
          simp only [scan, item, hstrip, plainContents, Text.split?]
          cases Text.strip? closing (c :: text) with
          | some rest => rfl
          | none =>
              simp only [hscan, plainContents]
              cases Text.split? closing text <;> rfl

theorem parse_eq_plainContents {q : Quotation} {input closing text : Text}
    (hfit : firstFit q.quotes input = some (closing, text))
    (hescape : ¬ q.escape <:+: text) :
    q.parse input = .ok (plainContents closing text).reply := by
  have hscan := scan_eq_plainContents closing hescape (Nat.lt_succ_self _)
  simp only [parse, hfit, hscan]
  rfl

theorem parseRaw_eq_plainContents {quotes : List (Text × Text)}
    {input closing text : Text} (hfit : firstFit quotes input = some (closing, text)) :
    parseRaw quotes input = (plainContents closing text).reply := by
  simp only [parseRaw, hfit, plainContents]
  cases Text.split? closing text <;> rfl

theorem parseRaw_of_noneFits {quotes : List (Text × Text)} {input : Text}
    (h : NoneFits quotes input) :
    parseRaw quotes input = .failure "raw quoted string" input := by
  simp only [parseRaw, firstFit_eq_none_iff.mpr h]

theorem rawQuoted_eq {start finish : List Text} (hlength : start.length = finish.length) :
    Parser.rawQuoted start finish = .ok (.leaf (.rawQuoted (start.zip finish))) := by
  simp only [Parser.rawQuoted, pairQuotes, if_pos hlength]
  rfl

theorem outcome_run_rawQuoted (g : Grammar) (s : Settings) (limit : Nat)
    (quotes : List (Text × Text)) (input : Text) :
    (g.run s limit (.leaf (.rawQuoted quotes)) input).outcome =
      .ok (parseRaw quotes input) :=
  rfl

/-- **Nothing escaped.**  To a text in which the escape does not occur, strings with
escapes and plain strings between the same quotes have the same answer, which the first
occurrence of the closing quote decides.  Only without an opening quote do the labels of
their failures differ. -/
theorem run_quoted_rawQuoted {start finish : List Text}
    (hlength : start.length = finish.length) (escape : Text)
    (escapes : List (Text × Text)) :
    ∃ p p', Parser.quoted start finish escape escapes = .ok p ∧
      Parser.rawQuoted start finish = .ok p' ∧
      ∀ (g : Grammar) (s : Settings) (limit : Nat) (input : Text),
        ¬ escape <:+: input →
        (∃ opening closing text r, FirstFits (start.zip finish) input opening closing ∧
          opening ++ text = input ∧ Closes closing text r ∧
          (g.run s limit p input).outcome = .ok r ∧
          (g.run s limit p' input).outcome = .ok r) ∨
        (NoneFits (start.zip finish) input ∧
          (g.run s limit p input).outcome = .ok (.failure "quoted string" input) ∧
          (g.run s limit p' input).outcome = .ok (.failure "raw quoted string" input)) := by
  refine ⟨_, _, quoted_eq hlength escape escapes, rawQuoted_eq hlength, ?_⟩
  intro g s limit input hescape
  rw [outcome_run_quoted, outcome_run_rawQuoted]
  cases hfit : firstFit (start.zip finish) input with
  | none =>
      right
      have hnone := firstFit_eq_none_iff.mp hfit
      rw [parseRaw_of_noneFits hnone]
      exact ⟨hnone, parse_of_noneFits hnone, rfl⟩
  | some found =>
      left
      obtain ⟨closing, text⟩ := found
      obtain ⟨opening, hfirst, happend⟩ := firstFit_eq_some_iff.mp hfit
      have hsuffix : text <:+ input := ⟨opening, happend⟩
      have hrest : ¬ escape <:+: text := fun hfound => hescape (hfound.trans hsuffix.isInfix)
      have hparse : (ofQuotes start finish escape escapes).parse input =
          .ok (plainContents closing text).reply := parse_eq_plainContents hfit hrest
      rw [parseRaw_eq_plainContents hfit]
      exact ⟨opening, closing, text, _, hfirst, happend, closes_plainContents closing text,
        hparse, rfl⟩

/-- A closing quote that overlaps itself closes the string where it stands first. -/
theorem run_quoted_rawQuoted_overlap :
    ∃ p p', Parser.quoted ["<"] ["aa"] backslash standardEscapes = .ok p ∧
      Parser.rawQuoted ["<"] ["aa"] = .ok p' ∧
      ∀ (g : Grammar) (s : Settings) (limit : Nat),
        (g.run s limit p "<xaaa").outcome = .ok (.success (.text "x") "a") ∧
        (g.run s limit p' "<xaaa").outcome = .ok (.success (.text "x") "a") := by
  have hlength : (["<"] : List Text).length = (["aa"] : List Text).length := rfl
  obtain ⟨p, p', hp, hp', hrun⟩ := run_quoted_rawQuoted hlength backslash standardEscapes
  refine ⟨p, p', hp, hp', ?_⟩
  intro g s limit
  have hescape : ¬ backslash <:+: "<xaaa" := by decide
  rw [rawQuoted_eq hlength] at hp'
  cases hp'
  have hraw : (g.run s limit (.leaf (.rawQuoted [("<", "aa")])) "<xaaa").outcome =
      .ok (.success (.text "x") "a") := rfl
  rcases hrun g s limit "<xaaa" hescape with ⟨_, _, _, r, _, _, _, h, h'⟩ | ⟨hnone, _, _⟩
  · exact ⟨(h.trans h'.symm).trans hraw, hraw⟩
  · exact absurd ⟨"xaaa", rfl⟩ (hnone ("<", "aa") List.mem_cons_self)

end Quotation

end ParserAlgebra
