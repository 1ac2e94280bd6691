import ParserAlgebra.Proofs.Remainder.Leaf
/-!
# Leaves that end and leaves that consume

Two properties of leaves on which the ending of recursive parsers rests.

* `Leaf.WellBehaved`: the leaf ends on every text and obeys the suffix rule.
  This is a condition on `custom` leaves, and on quoted strings with escapes:
  there, an empty escape together with an empty sequence in the table would be
  an item that can be read for ever.
* `Leaf.Strict`: where the leaf succeeds, it leaves less than it was given.

A scan of a quoted string is bounded by the length of its text.  Each item that
it goes on after takes at least one code point, so the bound is never reached
(`Quotation.scan_ne_unfinished`).
-/

namespace ParserAlgebra

namespace Text

theorem length_of_strip?
    {start text rest : Text}
    (h : strip? start text = some rest) :
    text.length = start.length + rest.length := by
  rw [strip?_eq_some_iff.mp h, List.length_append]

theorem length_lt_of_strip? {start text rest : Text} (hstart : start ≠ [])
    (h : strip? start text = some rest) : rest.length < text.length := by
  have hlength := length_of_strip? h
  have hpos : 0 < start.length := List.length_pos_iff.mpr hstart
  omega

/-- What is left after a run of code points is shorter than the text if the
run is not empty. -/
theorem length_dropWhile_lt
    {p : CodePoint → Bool} {text : Text}
    (h : (text.takeWhile p).isEmpty = false) :
    (text.dropWhile p).length < text.length := by
  have hlength :
      (text.takeWhile p).length + (text.dropWhile p).length = text.length := by
    rw [← List.length_append, List.takeWhile_append_dropWhile]
  have hpos : 0 < (text.takeWhile p).length := by
    rw [List.length_pos_iff]
    intro hnil
    simp [hnil] at h
  omega

theorem lowerAt_ne_nil (before : Text) (c : CodePoint) (after : Text) :
    lowerAt before c after ≠ [] := by
  unfold lowerAt CodePoint.lower
  split
  · split <;> simp
  · split
    · simp
    · split
      · simp
      · split <;> simp

/-- Only the empty text is empty in lower case. -/
theorem eq_nil_of_lower_eq_nil {text : Text} (h : lower text = []) :
    text = [] := by
  cases text with
  | nil => rfl
  | cons c rest =>
      rw [lower, lower.go, List.append_eq_nil_iff] at h
      exact absurd h.1 (lowerAt_ne_nil _ _ _)

end Text

theorem Outcome.map_ne_unfinished {α β : Type} {x : Outcome α} (f : α → β)
    (h : x ≠ .error .unfinished) : x.map f ≠ .error .unfinished := by
  intro heq
  cases x with
  | error stop =>
      cases heq
      exact h rfl
  | ok a => cases heq

namespace Quotation

/-- No item of the contents can be read without consuming something. -/
def Progresses (q : Quotation) : Prop :=
  q.escape ≠ [] ∨ ∀ entry ∈ q.escapes, entry.1 ≠ []

theorem length_lt_of_firstFit
    {table : List (Text × Text)} {input meaning rest : Text}
    (htable : ∀ entry ∈ table, entry.1 ≠ [])
    (h : firstFit table input = some (meaning, rest)) :
    rest.length < input.length := by
  obtain ⟨entry, hentry, hfit⟩ := List.exists_of_findSome?_eq_some h
  obtain ⟨rest', hrest, heq⟩ := Option.map_eq_some_iff.mp hfit
  cases heq
  exact Text.length_lt_of_strip? (htable entry hentry) hrest

/-- If no sequence of the table is empty, then what follows the escape
consumes something. -/
theorem length_lt_of_itemAfterEscape
    {q : Quotation} {text meaning rest : Text}
    (htable : ∀ entry ∈ q.escapes, entry.1 ≠ [])
    (h : q.itemAfterEscape text = .content meaning rest) :
    rest.length < text.length := by
  unfold itemAfterEscape at h
  split at h
  · next meaning' rest' hfit =>
      cases h
      exact length_lt_of_firstFit htable hfit
  · split at h
    · cases h
    · split at h
      · split at h
        · cases h
          simp only [List.length_drop, List.length_cons]
          omega
        · cases h
      · cases h
        exact Nat.lt_succ_self _

/-- An item with a meaning consumes something. -/
theorem length_lt_of_item
    {q : Quotation}
    (hq : q.Progresses)
    {closing text meaning rest : Text}
    (h : q.item closing text = .content meaning rest) :
    rest.length < text.length := by
  unfold item at h
  split at h
  · next after hescape =>
      have hlength := Text.length_of_strip? hescape
      have hsuffix : rest <:+ after := by
        have := q.suffix_itemAfterEscape after
        rwa [h] at this
      have hle := hsuffix.length_le
      rcases hq with hne | htable
      · have hlt := Text.length_lt_of_strip? hne hescape
        omega
      · have hlt := length_lt_of_itemAfterEscape htable h
        omega
  · split at h
    · cases h
    · split at h
      · cases h
      · cases h
        exact Nat.lt_succ_self _

/-- **Scanning ends.**  A bound above the length of the text is not used
up. -/
theorem scan_ne_unfinished
    {q : Quotation}
    (hq : q.Progresses)
    (closing : Text) {bound : Nat} {text : Text}
    (h : text.length < bound) :
    q.scan closing bound text ≠ .error .unfinished := by
  induction bound generalizing text with
  | zero => exact absurd h (Nat.not_lt_zero _)
  | succ bound ih =>
      simp only [scan]
      split
      · next meaning rest hitem =>
          have hlt := length_lt_of_item hq hitem
          exact Outcome.map_ne_unfinished _ (ih (by omega))
      · intro hscan
        cases hscan
      · intro hscan
        cases hscan

theorem parse_ne_unfinished {q : Quotation} (hq : q.Progresses) (input : Text) :
    q.parse input ≠ .error .unfinished := by
  unfold parse
  split
  · next closing rest _ =>
      have hscan := scan_ne_unfinished hq closing (Nat.lt_succ_self rest.length)
      exact Outcome.map_ne_unfinished _ hscan
  · intro h
    cases h

end Quotation

namespace Leaf

/-- The leaf ends on every text and leaves an end of it. -/
def WellBehaved : Leaf → Prop
  | quoted q => q.Progresses
  | custom f => (∀ input, f input ≠ .error .unfinished) ∧
      ∀ input r, f input = .ok r → r.rest <:+ input
  | _ => True

theorem WellBehaved.keepsSuffix {l : Leaf}
    (h : l.WellBehaved) : l.KeepsSuffix := by
  cases l with
  | custom f => exact h.2
  | _ => trivial

theorem WellBehaved.run_ne_unfinished
    {l : Leaf}
    (h : l.WellBehaved)
    (input : Text) :
    l.run input ≠ .error .unfinished := by
  cases l with
  | quoted q => exact Quotation.parse_ne_unfinished h input
  | custom f => exact h.1 input
  | satisfy p label => cases input <;> simp [run]
  | literal text => cases hstrip : Text.strip? text input <;> simp [run, hstrip]
  | regex r => cases hmatch : r.match? input <;> simp [run, hmatch]
  | integer radix =>
      cases hparse : Integer.parse radix input <;>
        simp [run, hparse, Outcome.ofExcept]
  | _ => simp [run]

/-- Where the leaf succeeds, it consumes something. -/
def Strict : Leaf → Prop
  | satisfy _ _ => True
  | literal text => text ≠ []
  | caseless text => text ≠ []
  | takeWhile1 _ _ => True
  | regex r => 0 < r.pattern.minLength
  | whitespace1 => True
  | integer _ => True
  | _ => False

end Leaf

namespace Integer

/-- A number has at least one digit. -/
theorem length_lt_of_ofDigits {negative : Bool} {radix : Radix} {text : Text}
    {failure r : Reply} (hfailure : failure.isSuccess = false)
    (h : ofDigits negative radix text failure = .ok r) (hr : r.isSuccess) :
    r.rest.length < text.length := by
  unfold ofDigits at h
  split at h
  · cases h
    simp [hfailure] at hr
  · next hdigits =>
      cases hn : Numeral.read radix (text.takeWhile radix.hasDigit) with
      | error cause => simp [hn, Bind.bind, Except.bind] at h
      | ok n =>
          simp only [hn, Bind.bind, Except.bind, Pure.pure, Except.pure,
            Except.ok.injEq] at h
          subst h
          exact Text.length_dropWhile_lt (Bool.eq_false_iff.mpr hdigits)

theorem length_lt_of_parse
    {radix : Option Radix} {input : Text} {r : Reply}
    (h : parse radix input = .ok r)
    (hr : r.isSuccess) :
    r.rest.length < input.length := by
  have hsign := (suffix_splitSign input).length_le
  unfold parse at h
  cases hsplit : splitSign input with
  | mk negative unsigned =>
  rw [hsplit] at hsign
  simp only [hsplit] at h
  split at h
  · exact Nat.lt_of_lt_of_le (length_lt_of_ofDigits rfl h hr) hsign
  · split at h
    · next mark radix rest hmark =>
        have hrest := (suffix_of_marked? hmark).length_le
        have hlt := length_lt_of_ofDigits rfl h hr
        exact Nat.lt_of_lt_of_le hlt (Nat.le_trans hrest hsign)
    · exact Nat.lt_of_lt_of_le (length_lt_of_ofDigits rfl h hr) hsign

end Integer

namespace Leaf

/-- **Strict leaves consume.**  A success of a strict leaf leaves less than
the whole text. -/
theorem Strict.length_lt_of_run
    {l : Leaf}
    (hl : l.Strict)
    {input : Text} {r : Reply}
    (h : l.run input = .ok r)
    (hr : r.isSuccess) :
    r.rest.length < input.length := by
  cases l with
  | satisfy p label =>
      cases input with
      | nil =>
          cases h
          cases hr
      | cons c rest =>
          simp only [run, Except.ok.injEq] at h
          split at h
          · subst h
            exact Nat.lt_succ_self _
          · subst h
            cases hr
  | literal text =>
      simp only [run] at h
      split at h
      · next rest hstrip =>
          cases h
          exact Text.length_lt_of_strip? hl hstrip
      · cases h
        cases hr
  | caseless text =>
      simp only [run, Except.ok.injEq] at h
      split at h
      · next heq =>
          subst h
          have hne : input ≠ [] := by
            intro hnil
            rw [hnil, List.take_nil] at heq
            exact hl (Text.eq_nil_of_lower_eq_nil heq.symm)
          have hinput : 0 < input.length := List.length_pos_iff.mpr hne
          have htext : 0 < text.length := List.length_pos_iff.mpr hl
          simp only [Reply.rest, List.length_drop]
          omega
      · subst h
        cases hr
  | takeWhile1 p label =>
      simp only [run, Except.ok.injEq] at h
      split at h
      · subst h
        cases hr
      · next hne =>
          subst h
          exact Text.length_dropWhile_lt (Bool.eq_false_iff.mpr hne)
  | regex x =>
      simp only [run] at h
      split at h
      · next m hmatch =>
          cases h
          have hrest := (Regex.match?_rest hmatch).2
          have hpos : 0 < x.pattern.minLength := hl
          simp only [Reply.rest]
          omega
      · cases h
        cases hr
  | whitespace1 =>
      simp only [run, Except.ok.injEq] at h
      split at h
      · next hhead =>
          subst h
          refine Text.length_dropWhile_lt ?_
          cases input with
          | nil => simp at hhead
          | cons c rest =>
              have hc : isWhitespace c = true := by simpa using hhead
              simp [hc]
      · subst h
        cases hr
  | integer radix =>
      cases hparse : Integer.parse radix input with
      | error cause => simp [run, hparse, Outcome.ofExcept] at h
      | ok r' =>
          simp only [run, hparse, Outcome.ofExcept, Except.ok.injEq] at h
          subst h
          exact Integer.length_lt_of_parse hparse hr
  | _ => cases hl

end Leaf

end ParserAlgebra
