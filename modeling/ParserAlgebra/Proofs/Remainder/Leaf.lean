import Mathlib.Data.List.Infix
import ParserAlgebra.Leaf.Basic
import ParserAlgebra.Proofs.Remainder.Regex
/-!
# What a leaf leaves

Each leaf of the library leaves an end of the text that it was given, whether it
succeeds or fails.  Most failures leave the whole text.  The exceptions are an
integer whose mark is not followed by a digit, and a quoted string that is
broken inside: they leave what follows the place of the mistake.

`Leaf.KeepsSuffix` is the rule as a condition on a leaf.  Only a `custom` leaf
can break it (`Leaf.suffix_of_run`).
-/

namespace ParserAlgebra

namespace Text

theorem suffix_of_strip?
    {start text rest : Text}
    (h : strip? start text = some rest) :
    rest <:+ text :=
  ⟨start, (strip?_eq_some_iff.mp h).symm⟩

theorem suffix_of_split? {mark text before rest : Text}
    (h : split? mark text = some (before, rest)) : rest <:+ text := by
  refine ⟨before ++ mark, ?_⟩
  rw [List.append_assoc]
  exact append_of_split? h

end Text

namespace Integer

theorem suffix_splitSign (text : Text) : (splitSign text).2 <:+ text := by
  unfold splitSign
  split
  · next rest h => exact Text.suffix_of_strip? h
  · exact List.suffix_rfl

/-- A number leaves what follows its digits, and the failure leaves what it
says. -/
theorem suffix_ofDigits
    {negative : Bool} {radix : Radix} {text input : Text}
    {failure r : Reply}
    (h : ofDigits negative radix text failure = .ok r)
    (htext : text <:+ input)
    (hfailure : failure.rest <:+ input) :
    r.rest <:+ input := by
  unfold ofDigits at h
  split at h
  · cases h
    exact hfailure
  · cases hn : Numeral.read radix (text.takeWhile radix.hasDigit) with
    | error cause => simp [hn, Bind.bind, Except.bind] at h
    | ok n =>
        simp only [hn, Bind.bind, Except.bind, Pure.pure, Except.pure,
          Except.ok.injEq] at h
        subst h
        exact (List.dropWhile_suffix _).trans htext

theorem suffix_of_marked? {text mark rest : Text} {radix : Radix}
    (h : Radix.marked? text = some (mark, radix, rest)) : rest <:+ text := by
  obtain ⟨entry, -, hentry⟩ := List.exists_of_findSome?_eq_some h
  obtain ⟨rest', hrest, heq⟩ := Option.map_eq_some_iff.mp hentry
  cases heq
  exact Text.suffix_of_strip? hrest

theorem suffix_parse {radix : Option Radix} {input : Text} {r : Reply}
    (h : parse radix input = .ok r) : r.rest <:+ input := by
  have hsign := suffix_splitSign input
  unfold parse at h
  cases hsplit : splitSign input with
  | mk negative unsigned =>
  rw [hsplit] at hsign
  simp only [hsplit] at h
  split at h
  · exact suffix_ofDigits h hsign List.suffix_rfl
  · split at h
    · next mark radix rest hmark =>
        have hrest := (suffix_of_marked? hmark).trans hsign
        exact suffix_ofDigits h hrest hrest
    · exact suffix_ofDigits h hsign List.suffix_rfl

end Integer

namespace Quotation

theorem suffix_of_firstFit
    {table : List (Text × Text)} {input meaning rest : Text}
    (h : firstFit table input = some (meaning, rest)) :
    rest <:+ input := by
  obtain ⟨entry, -, hentry⟩ := List.exists_of_findSome?_eq_some h
  obtain ⟨rest', hrest, heq⟩ := Option.map_eq_some_iff.mp hentry
  cases heq
  exact Text.suffix_of_strip? hrest

/-- The text after an item, or at the mistake in it. -/
def Item.rest : Item → Text
  | content _ rest => rest
  | close rest => rest
  | broken _ rest => rest

theorem suffix_itemAfterEscape (q : Quotation) (text : Text) :
    (q.itemAfterEscape text).rest <:+ text := by
  unfold itemAfterEscape
  split
  · next meaning rest h => exact suffix_of_firstFit h
  · split
    · exact List.suffix_rfl
    · next c rest _ =>
        have hrest : rest <:+ c :: rest := List.suffix_cons c rest
        split
        · split
          · exact (List.drop_suffix 4 rest).trans hrest
          · exact hrest
        · exact hrest

theorem suffix_item
    (q : Quotation) (closing text : Text) :
    (q.item closing text).rest <:+ text := by
  unfold item
  split
  · next rest h =>
      have hrest : rest <:+ text := Text.suffix_of_strip? h
      exact (q.suffix_itemAfterEscape rest).trans hrest
  · split
    · next rest h => exact Text.suffix_of_strip? h
    · split
      · exact List.suffix_rfl
      · next c rest _ _ => exact List.suffix_cons c rest

/-- Scanning goes on after each item, so it stops at an end of the text. -/
theorem suffix_scan
    {q : Quotation} {closing : Text} {bound : Nat} {text : Text}
    {c : Contents}
    (h : q.scan closing bound text = .ok c) :
    c.reply.rest <:+ text := by
  induction bound generalizing text c with
  | zero => cases h
  | succ bound ih =>
      have hitem := q.suffix_item closing text
      simp only [scan] at h
      split at h
      · next meaning rest hcontent =>
          rw [hcontent] at hitem
          cases hscan : q.scan closing bound rest with
          | error stop => simp [hscan, Except.map] at h
          | ok c' =>
              simp only [hscan, Except.map, Except.ok.injEq] at h
              have hrest := (ih hscan).trans hitem
              subst h
              cases c' with
              | closed content rest' => exact hrest
              | broken expected rest' => exact hrest
      · next rest hclose =>
          rw [hclose] at hitem
          cases h
          exact hitem
      · next expected rest hbroken =>
          rw [hbroken] at hitem
          cases h
          exact hitem

theorem suffix_parse
    {q : Quotation} {input : Text} {r : Reply}
    (h : q.parse input = .ok r) :
    r.rest <:+ input := by
  unfold parse at h
  split at h
  · next closing rest hquote =>
      cases hscan : q.scan closing (rest.length + 1) rest with
      | error stop => simp [hscan, Except.map] at h
      | ok c =>
          simp only [hscan, Except.map, Except.ok.injEq] at h
          subst h
          exact (suffix_scan hscan).trans (suffix_of_firstFit hquote)
  · cases h
    exact List.suffix_rfl

theorem suffix_parseRaw (quotes : List (Text × Text)) (input : Text) :
    (parseRaw quotes input).rest <:+ input := by
  unfold parseRaw
  split
  · next closing rest hquote =>
      split
      · next content rest' hsplit =>
          exact (Text.suffix_of_split? hsplit).trans (suffix_of_firstFit hquote)
      · exact List.nil_suffix
  · exact List.suffix_rfl

end Quotation

namespace Leaf

/-- The leaf leaves an end of its text.  This is a condition on `custom`
leaves alone. -/
def KeepsSuffix : Leaf → Prop
  | custom f => ∀ input r, f input = .ok r → r.rest <:+ input
  | _ => True

/-- **Suffix rule for leaves.**  Whatever a leaf replies, it leaves an end of
its text. -/
theorem suffix_of_run {l : Leaf} (hl : l.KeepsSuffix) {input : Text} {r : Reply}
    (h : l.run input = .ok r) : r.rest <:+ input := by
  cases l with
  | satisfy p label =>
      cases input with
      | nil =>
          cases h
          exact List.suffix_rfl
      | cons c rest =>
          simp only [run, Except.ok.injEq] at h
          split at h
          · subst h
            exact List.suffix_cons c rest
          · subst h
            exact List.suffix_rfl
  | literal text =>
      simp only [run] at h
      split at h
      · next rest hstrip =>
          cases h
          exact Text.suffix_of_strip? hstrip
      · cases h
        exact List.suffix_rfl
  | caseless text =>
      simp only [run, Except.ok.injEq] at h
      split at h
      · subst h
        exact List.drop_suffix _ input
      · subst h
        exact List.suffix_rfl
  | takeWhile p =>
      cases h
      exact List.dropWhile_suffix p
  | takeWhile1 p label =>
      simp only [run, Except.ok.injEq] at h
      split at h
      · subst h
        exact List.suffix_rfl
      · subst h
        exact List.dropWhile_suffix p
  | regex pattern =>
      simp only [run] at h
      split at h
      · next found hfound =>
          cases h
          exact (Regex.match?_rest hfound).1
      · cases h
        exact List.suffix_rfl
  | whitespace =>
      cases h
      exact List.dropWhile_suffix _
  | whitespace1 =>
      simp only [run, Except.ok.injEq] at h
      split at h
      · subst h
        exact List.dropWhile_suffix _
      · subst h
        exact List.suffix_rfl
  | endOfInput =>
      simp only [run, Except.ok.injEq] at h
      split at h <;> subst h <;> exact List.suffix_rfl
  | integer radix =>
      cases hparse : Integer.parse radix input with
      | error cause => simp [run, hparse, Outcome.ofExcept] at h
      | ok r' =>
          simp only [run, hparse, Outcome.ofExcept, Except.ok.injEq] at h
          subst h
          exact Integer.suffix_parse hparse
  | quoted q => exact Quotation.suffix_parse h
  | rawQuoted quotes =>
      cases h
      exact Quotation.suffix_parseRaw quotes input
  | raise cause => cases h
  | custom f => exact hl input r h
  | pure v =>
      cases h
      exact List.suffix_rfl
  | succeed =>
      cases h
      exact List.suffix_rfl
  | fail label =>
      cases h
      exact List.suffix_rfl

end Leaf

end ParserAlgebra
