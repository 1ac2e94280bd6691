import Mathlib.Data.List.TakeWhile
import ParserAlgebra.Proofs.Regex.Longest
import ParserAlgebra.Proofs.Repetition.CodePoints
/-!
# The longest beginning with a property

The code points at the beginning of a text for which a predicate holds can be read in
two ways.  A repetition reads them one by one and leaves a shorter text each time; its
list of texts can be joined (`Value.join_codePoints`).  The other way is to take the
longest beginning of such code points at once.  It ends where a walk over the places of
the text stops (`Text.walk`), while the text stays as it is.  Both ways come to the
same, also where there is no such code point and at least one is asked for: the
repetition then fails because its first parser does, and the other way because it has
taken nothing.

* `Text.walk_eq`: at each place of the walk, what is still to be passed is the longest
  beginning of what comes after it.
* `Text.isLongest_takeWhile`, `Text.dropWhile_eq_nil_or`: what is taken, and where it
  ends.
* `joined_repetition_eq_takeWhile`: the outcomes are equal, and what they are.
-/

namespace ParserAlgebra

/-- A text is the concatenation of its code points. -/
theorem Value.join_codePoints (t : Text) :
    Value.join (.list (t.map fun c => .text [c])) = .ok (.text t) := by
  have htexts : Value.texts? (t.map fun c => .text [c]) = some (t.map fun c => [c]) := by
    have h := Value.texts?_map_text (t.map fun c => [c])
    rwa [List.map_map] at h
  have hflatten : (t.map fun c => [c]).flatten = t := by
    rw [← List.flatMap_def, List.flatMap_singleton']
  rw [Value.join, htexts]
  simp only [hflatten]

namespace Text

/-- Goes from place to place while there is a code point for which the predicate holds:
the place at which it stops. -/
def walk (f : CodePoint → Bool) (t : Text) (place : Nat) : Nat :=
  if h : place < t.length then
    if f t[place] then walk f t (place + 1) else place
  else place
termination_by t.length - place

/-- The place at which the walk stops, from each of its places. -/
theorem walk_eq (f : CodePoint → Bool) (t : Text) (place : Nat) :
    walk f t place = place + ((t.drop place).takeWhile f).length := by
  -- Along the walk: each step passes the first code point of what comes after its place.
  fun_induction walk f t place with
  | case1 place hplace hf ih =>
      rw [List.drop_eq_getElem_cons hplace, List.takeWhile_cons_of_pos hf, ih,
        List.length_cons]
      omega
  | case2 place hplace hf =>
      rw [List.drop_eq_getElem_cons hplace, List.takeWhile_cons_of_neg hf]
      rfl
  | case3 place hplace =>
      rw [List.drop_eq_nil_of_le (Nat.not_lt.mp hplace)]
      rfl

/-- The walk cuts the text where the longest beginning ends. -/
theorem take_drop_walk (f : CodePoint → Bool) (t : Text) :
    t.take (walk f t 0) = t.takeWhile f ∧ t.drop (walk f t 0) = t.dropWhile f := by
  have hparts : t.takeWhile f ++ t.dropWhile f = t := List.takeWhile_append_dropWhile
  have hplace : walk f t 0 = (t.takeWhile f).length := by
    rw [walk_eq, List.drop_zero, Nat.zero_add]
  have htake : (t.takeWhile f ++ t.dropWhile f).take (t.takeWhile f).length =
      t.takeWhile f := List.take_left
  have hdrop : (t.takeWhile f ++ t.dropWhile f).drop (t.takeWhile f).length =
      t.dropWhile f := List.drop_left
  rw [hparts] at htake hdrop
  rw [hplace]
  exact ⟨htake, hdrop⟩

theorem isLongest_takeWhile (f : CodePoint → Bool) (t : Text) :
    IsLongest {word | ∀ c ∈ word, f c = true} t (t.takeWhile f) where
  mem := fun _ hc => List.mem_takeWhile_imp hc
  begins := List.takeWhile_prefix f
  length_le := by
    intro word hall hbegins
    obtain ⟨rest, rfl⟩ := hbegins
    rw [List.takeWhile_append_of_pos hall, List.length_append]
    exact Nat.le_add_right _ _

theorem dropWhile_eq_nil_or (f : CodePoint → Bool) (t : Text) :
    t.dropWhile f = [] ∨ ∃ c rest, t.dropWhile f = c :: rest ∧ f c = false := by
  have hhead := List.head?_dropWhile_not f t
  cases hdrop : t.dropWhile f with
  | nil => exact .inl rfl
  | cons c rest =>
      rw [hdrop] at hhead
      exact .inr ⟨c, rest, rfl, hhead⟩

end Text

namespace Grammar

variable {g : Grammar} {s : Settings} {limit : Nat} {f : CodePoint → Bool} {label : Text}

theorem outcome_run_takeWhile1 (t : Text) :
    (g.run s limit (.takeWhile1 f label) t).outcome =
      .ok (if t.takeWhile f = [] then .failure label t
        else .success (.text (t.takeWhile f)) (t.dropWhile f)) := by
  rw [Parser.takeWhile1, outcome_run_leaf, Leaf.run]
  simp only [List.isEmpty_iff]

theorem outcome_run_many_joined (t : Text) :
    (g.run s limit ((Parser.satisfy f label).many.map Value.join) t).outcome =
      .ok (.success (.text (t.takeWhile f)) (t.dropWhile f)) := by
  rw [outcome_run_map, outcome_run_many_satisfy]
  simp only [Except.bind, Reply.map, Value.join_codePoints]
  rfl

theorem outcome_run_atLeastOne_joined (t : Text) :
    (g.run s limit ((Parser.satisfy f label).atLeastOne.map Value.join) t).outcome =
      .ok (if t.takeWhile f = [] then .failure label t
        else .success (.text (t.takeWhile f)) (t.dropWhile f)) := by
  rw [outcome_run_map, outcome_run_atLeastOne_satisfy]
  by_cases hnone : t.takeWhile f = []
  · rw [if_pos hnone, if_pos hnone]
    rfl
  · rw [if_neg hnone, if_neg hnone]
    simp only [Except.bind, Reply.map, Value.join_codePoints]
    rfl

/-- **One by one or at once.**  A repeated parser of one code point, with its list
joined, has the outcome of the parser that takes the longest beginning for whose code
points the predicate holds, at every limit on nesting.  So have those that want at least
one code point, which fail with the label on the whole text where there is none.  What is
taken and what is left are the text, cut where a walk over its places stops, and what is
left is empty or begins with a code point for which the predicate does not hold. -/
theorem joined_repetition_eq_takeWhile (g : Grammar) (s : Settings) (limit : Nat)
    (f : CodePoint → Bool) (label input : Text) :
    (g.run s limit ((Parser.satisfy f label).many.map Value.join) input).outcome =
        (g.run s limit (.takeWhile f) input).outcome ∧
      (g.run s limit ((Parser.satisfy f label).atLeastOne.map Value.join) input).outcome =
        (g.run s limit (.takeWhile1 f label) input).outcome ∧
      ∃ taken rest, Text.IsLongest {word | ∀ c ∈ word, f c = true} input taken ∧
        taken ++ rest = input ∧
        (rest = [] ∨ ∃ c later, rest = c :: later ∧ f c = false) ∧
        (input.take (Text.walk f input 0) = taken ∧
          input.drop (Text.walk f input 0) = rest) ∧
        (g.run s limit (.takeWhile f) input).outcome = .ok (.success (.text taken) rest) ∧
        (g.run s limit (.takeWhile1 f label) input).outcome =
          .ok (if taken = [] then .failure label input else .success (.text taken) rest) := by
  refine ⟨outcome_run_many_joined input, ?_, ?_⟩
  · rw [outcome_run_atLeastOne_joined, outcome_run_takeWhile1]
  · refine ⟨input.takeWhile f, input.dropWhile f, Text.isLongest_takeWhile f input,
      List.takeWhile_append_dropWhile, Text.dropWhile_eq_nil_or f input,
      Text.take_drop_walk f input, rfl, ?_⟩
    exact outcome_run_takeWhile1 input

end Grammar

end ParserAlgebra
