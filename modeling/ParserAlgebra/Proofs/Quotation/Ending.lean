import ParserAlgebra.Proofs.Quotation
/-!
# Quoted strings whose reading ends

Reading goes on item after item until none stands at the place.  As a rule each item
takes something of the text, so it comes to an end.  The exception is an item that takes
nothing, which needs two things at once: an empty escape, and an empty sequence in the
table.  Then an item stands at every place, even at the end of the text and in front of
the closing quote, and once a string is opened its items go on for ever.

* `Quotation.Ends` and `Quotation.GoesOn`: after finitely many items none stands there,
  or there are as many items as one likes.
* `Quotation.ends_iff_not_goesOn`: it is one of the two.
* `Quotation.ends_iff_progresses`: which of them depends neither on the text nor on the
  closing quote.
* `Quotation.isResult_run_quoted_iff`: so a run gives a result, unless the exception
  holds and the text begins with an opening quote.
-/

namespace ParserAlgebra

namespace Quotation

/-- A run that is not cut short gives a text or a failure. -/
inductive IsResult : Outcome Reply → Prop
  | text (content rest : Text) : IsResult (.ok (.success (.text content) rest))
  | failure (label rest : Text) : IsResult (.ok (.failure label rest))

/-- After finitely many items none stands at the place. -/
def Ends (q : Quotation) (closing text : Text) : Prop :=
  ∃ items last, spelled items ++ last = text ∧ q.Items closing last items ∧
    q.Stops closing last

/-- There are as many items as one likes. -/
def GoesOn (q : Quotation) (closing text : Text) : Prop :=
  ∀ n, ∃ items last, items.length = n ∧ spelled items ++ last = text ∧
    q.Items closing last items

theorem FirstFits.not_noneFits {table : List (Text × Text)} {text start meaning : Text}
    (h : FirstFits table text start meaning) : ¬ NoneFits table text := by
  obtain ⟨hstart, before, after, rfl, _⟩ := h
  intro hnone
  exact hnone (start, meaning) (List.mem_append_right before List.mem_cons_self) hstart

section

variable {q : Quotation} {closing text : Text}

/-- No items go on beyond the place where items stop. -/
theorem Items.length_le_of_stops {items items' : List (Text × Text)} {last last' : Text}
    (hitems : q.Items closing last items) (hitems' : q.Items closing last' items')
    (heq : spelled items ++ last = spelled items' ++ last')
    (hlast : q.Stops closing last) : items'.length ≤ items.length := by
  induction hitems generalizing items' with
  | nil =>
      cases hitems' with
      | nil => exact Nat.le_refl _
      | cons hfirst' _ =>
          rw [spelled_cons, List.append_assoc] at heq
          have hfirst := heq ▸ hfirst'
          exact absurd hfirst (hlast _ _)
  | cons hfirst _ ih =>
      rw [spelled_cons, List.append_assoc] at heq
      cases hitems' with
      | nil => exact Nat.zero_le _
      | cons hfirst' hrest' =>
          rw [spelled_cons, List.append_assoc] at heq
          have hsame := (heq ▸ hfirst).eq hfirst'
          simp only [Item.content.injEq] at hsame
          have hle := ih hrest' hsame.2
          exact Nat.succ_le_succ hle

/-- Items that stop nowhere go on: after any of them there is one more. -/
theorem goesOn_of_not_ends (h : ¬ q.Ends closing text) : q.GoesOn closing text := by
  intro n
  induction n generalizing text with
  | zero => exact ⟨[], text, rfl, rfl, .nil⟩
  | succ n ih =>
      have hstops : ¬ q.Stops closing text := fun hstops => h ⟨[], text, rfl, .nil, hstops⟩
      simp only [Stops, not_forall, not_not] at hstops
      obtain ⟨meaning, rest, hfirst⟩ := hstops
      obtain ⟨spelling, rfl⟩ := hfirst.exists_spelling
      have hrest : ¬ q.Ends closing rest := by
        rintro ⟨items, last, rfl, hitems, hlast⟩
        refine h ⟨(spelling, meaning) :: items, last, ?_, .cons hfirst hitems, hlast⟩
        rw [spelled_cons, List.append_assoc]
      obtain ⟨items, last, rfl, rfl, hitems⟩ := ih hrest
      refine ⟨(spelling, meaning) :: items, last, rfl, ?_, .cons hfirst hitems⟩
      rw [spelled_cons, List.append_assoc]

/-- Items either end or go on for ever. -/
theorem ends_iff_not_goesOn : q.Ends closing text ↔ ¬ q.GoesOn closing text := by
  constructor
  · rintro ⟨items, last, rfl, hitems, hlast⟩ hgoes
    obtain ⟨items', last', hlength, happend, hitems'⟩ := hgoes (items.length + 1)
    have hle := hitems.length_le_of_stops hitems' happend.symm hlast
    omega
  · intro h
    by_contra hends
    exact h (goesOn_of_not_ends hends)

/-- Where an item can be read without consuming something, one stands at every place. -/
theorem not_stops_of_not_progresses (hq : ¬ q.Progresses) (closing text : Text) :
    ¬ q.Stops closing text := by
  simp only [Progresses, not_or, not_not, not_forall] at hq
  obtain ⟨hescape, entry, hentry, hempty⟩ := hq
  intro hstops
  cases hfit : firstFit q.escapes text with
  | none =>
      refine firstFit_eq_none_iff.mp hfit entry hentry ?_
      rw [hempty]
      exact List.nil_prefix
  | some found =>
      obtain ⟨meaning, rest⟩ := found
      obtain ⟨spelling, hfirst, rfl⟩ := firstFit_eq_some_iff.mp hfit
      have hstands : q.Stands closing (q.escape ++ (spelling ++ rest))
        (.content meaning rest) := .sequence hfirst
      rw [hescape, List.nil_append] at hstands
      exact hstops _ _ hstands

theorem ends_iff_progresses : q.Ends closing text ↔ q.Progresses := by
  constructor
  · rintro ⟨items, last, _, _, hlast⟩
    by_contra hq
    exact not_stops_of_not_progresses hq closing last hlast
  · intro hq
    exact exists_items hq closing text

/-- Where items go on for ever, no bound on the iterations is enough. -/
theorem scan_of_goesOn (h : q.GoesOn closing text) (bound : Nat) :
    q.scan closing bound text = .error .unfinished := by
  obtain ⟨items, last, rfl, rfl, hitems⟩ := h bound
  exact scan_items hitems 0

theorem isResult_parse (hq : q.Progresses) (input : Text) : IsResult (q.parse input) := by
  obtain ⟨outcome, hreads⟩ := exists_reads hq input
  rw [outcome_of_reads hq hreads]
  cases hreads with
  | closed d hclose => exact .text _ _
  | broken d hbroken => exact .failure _ _
  | unopened hnone => exact .failure _ _

theorem parse_of_not_progresses (hq : ¬ q.Progresses) {input : Text}
    (hopened : ¬ NoneFits q.quotes input) : q.parse input = .error .unfinished := by
  unfold parse
  split
  · next closing rest _ =>
      have hgoes : q.GoesOn closing rest :=
        goesOn_of_not_ends fun hends => hq (ends_iff_progresses.mp hends)
      rw [scan_of_goesOn hgoes]
      rfl
  · next hfit => exact absurd (firstFit_eq_none_iff.mp hfit) hopened

end

theorem isResult_parse_iff (q : Quotation) (input : Text) :
    IsResult (q.parse input) ↔ q.Progresses ∨ NoneFits q.quotes input := by
  constructor
  · intro hresult
    by_contra h
    obtain ⟨hq, hopened⟩ := not_or.mp h
    rw [parse_of_not_progresses hq hopened] at hresult
    cases hresult
  · rintro (hq | hnone)
    · exact isResult_parse hq input
    · rw [parse_of_noneFits hnone]
      exact .failure _ _

theorem parse_eq_unfinished_iff (q : Quotation) (input : Text) :
    q.parse input = .error .unfinished ↔ ¬ IsResult (q.parse input) := by
  constructor
  · intro hparse hresult
    rw [hparse] at hresult
    cases hresult
  · intro h
    rw [isResult_parse_iff, not_or] at h
    exact parse_of_not_progresses h.1 h.2

/-- **Ending.**  For opening quotes with as many closing ones there is a parser.  Its run
gives a result exactly if the escape is not empty, or no sequence of the table is, or no
opening quote begins the text; else it is left unfinished.  For a string that is opened,
the run gives a result exactly if its items end, and is left unfinished exactly if they
go on for ever. -/
theorem isResult_run_quoted_iff {start finish : List Text}
    (hlength : start.length = finish.length) (escape : Text)
    (escapes : List (Text × Text)) :
    ∃ p, Parser.quoted start finish escape escapes = .ok p ∧
      ∀ (g : Grammar) (s : Settings) (limit : Nat) (input : Text),
        (IsResult (g.run s limit p input).outcome ↔
          (escape ≠ [] ∨ ∀ entry ∈ escapes, entry.1 ≠ []) ∨
            NoneFits (start.zip finish) input) ∧
        ((g.run s limit p input).outcome = .error .unfinished ↔
          ¬ IsResult (g.run s limit p input).outcome) ∧
        ∀ opening closing contents, FirstFits (start.zip finish) input opening closing →
          opening ++ contents = input →
          (IsResult (g.run s limit p input).outcome ↔
            (ofQuotes start finish escape escapes).Ends closing contents) ∧
          ((g.run s limit p input).outcome = .error .unfinished ↔
            (ofQuotes start finish escape escapes).GoesOn closing contents) := by
  let q : Quotation := ofQuotes start finish escape escapes
  refine ⟨.leaf (.quoted q), quoted_eq hlength escape escapes, ?_⟩
  intro g s limit input
  rw [outcome_run_quoted]
  refine ⟨isResult_parse_iff q input, parse_eq_unfinished_iff q input, ?_⟩
  rintro opening closing contents hfirst rfl
  have hopened : ¬ NoneFits q.quotes (opening ++ contents) := hfirst.not_noneFits
  have hends : IsResult (q.parse (opening ++ contents)) ↔ q.Ends closing contents := by
    rw [isResult_parse_iff, or_iff_left hopened, ends_iff_progresses]
  refine ⟨hends, ?_⟩
  rw [parse_eq_unfinished_iff, hends, ends_iff_not_goesOn, not_not]

/-- Without an escape every code point counts as escaped, the closing quote included.
But as no sequence of the table is empty, the reading ends. -/
theorem unescaped_isResult :
    ∃ p, Parser.quoted ["<"] [">"] [] [("n", "\n")] = .ok p ∧
      ∀ (g : Grammar) (s : Settings) (limit : Nat),
        IsResult (g.run s limit p "<an>").outcome := by
  have hlength : (["<"] : List Text).length = ([">"] : List Text).length := rfl
  obtain ⟨p, hp, hrun⟩ := isResult_run_quoted_iff hlength [] [("n", "\n")]
  have htable : ∀ entry ∈ ([("n", "\n")] : List (Text × Text)), entry.1 ≠ [] := by decide
  exact ⟨p, hp, fun g s limit => (hrun g s limit "<an>").1.mpr (.inl (.inr htable))⟩

/-- A table that gives a meaning to the empty sequence. -/
def emptySequence : List (Text × Text) := [([], "-")]

/-- Without an escape and with the empty sequence, the items of a string that is opened
go on for ever, though its closing quote is there. -/
theorem emptySequence_not_isResult :
    ∃ p, Parser.quoted ["<"] [">"] [] emptySequence = .ok p ∧
      (ofQuotes ["<"] [">"] [] emptySequence).GoesOn ">" "a>" ∧
      ∀ (g : Grammar) (s : Settings) (limit : Nat),
        (g.run s limit p "<a>").outcome = .error .unfinished ∧
        ¬ IsResult (g.run s limit p "<a>").outcome := by
  let q : Quotation := ofQuotes ["<"] [">"] [] emptySequence
  have hlength : (["<"] : List Text).length = ([">"] : List Text).length := rfl
  have hq : ¬ q.Progresses := by
    rintro (hescape | htable)
    · exact hescape rfl
    · exact htable ([], "-") List.mem_cons_self rfl
  have hgoes : q.GoesOn ">" "a>" :=
    goesOn_of_not_ends fun hends => hq (ends_iff_progresses.mp hends)
  have hopened : ¬ NoneFits q.quotes "<a>" :=
    fun hnone => hnone ("<", ">") List.mem_cons_self ⟨"a>", rfl⟩
  refine ⟨.leaf (.quoted q), quoted_eq hlength [] emptySequence, hgoes, ?_⟩
  intro g s limit
  have hparse : q.parse "<a>" = .error .unfinished := parse_of_not_progresses hq hopened
  rw [outcome_run_quoted, hparse]
  refine ⟨rfl, ?_⟩
  intro hresult
  cases hresult

end Quotation

end ParserAlgebra
