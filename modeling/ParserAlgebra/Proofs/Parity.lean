import Mathlib.Algebra.Ring.Parity
import Mathlib.Order.Bounds.Basic
import ParserAlgebra.Grammar
import ParserAlgebra.Proofs.Repetition.CodePoints
/-!
# Two cells that call each other

One cell reads a letter and then what the other one reads, or else the letter alone.
The other reads a letter and then what the first one reads.  Together they count: the
first takes an odd number of letters and the second an even one, as many as there are.

Whether the first takes the letter alone depends on all letters after it, for the other
cell fails on one letter only.  So the replies of both cells on so many letters
(`Reply.ofOdd`, `Reply.ofEven`) are found together, each from the other one on the
letters after the first: a step for each cell (`concludes_odd`, `concludes_even`), and
an induction on the number of letters (`concludes_letters`).

* `reads_parity`: the number of letters that are read is the greatest of its parity.
-/

namespace ParserAlgebra

namespace Parser

/-- A letter and the other cell, or else the letter alone. -/
def oddLetters (other : Nat) : Parser :=
  ((char 'a').andThen (cell other)).orElse (char 'a')

/-- A letter and the other cell. -/
def evenLetters (other : Nat) : Parser := (char 'a').andThen (cell other)

end Parser

/-- So many letters before a text. -/
def Text.letters (k : Nat) (rest : Text) : Text := List.replicate k (.ofChar 'a') ++ rest

/-- The greatest odd number below a bound. -/
theorem isGreatest_odd (k : Nat) : IsGreatest {m | Odd m ∧ m ≤ k + 1} (k + 1 - k % 2) := by
  refine ⟨⟨?_, Nat.sub_le _ _⟩, ?_⟩
  · rw [Nat.odd_iff]
    omega
  · intro m ⟨hodd, hle⟩
    rw [Nat.odd_iff] at hodd
    omega

/-- The greatest even number below a bound. -/
theorem isGreatest_even (k : Nat) : IsGreatest {m | Even m ∧ m ≤ k} (k - k % 2) := by
  refine ⟨⟨?_, Nat.sub_le _ _⟩, ?_⟩
  · rw [Nat.even_iff]
    omega
  · intro m ⟨heven, hle⟩
    rw [Nat.even_iff] at heven
    omega

namespace Reply

/-- An odd number of letters is read. -/
def ofOdd (rest : Text) : Nat → Reply
  | 0 => .failure Parser.sequenceLabel rest
  | k + 1 => .success (.text [.ofChar 'a']) (Text.letters (k % 2) rest)

/-- An even number of letters is read, but not none. -/
def ofEven (rest : Text) : Nat → Reply
  | 0 => .failure Parser.sequenceLabel rest
  | 1 => .failure Parser.sequenceLabel (Text.letters 1 rest)
  | k + 2 => .success (.text [.ofChar 'a']) (Text.letters (k % 2) rest)

theorem ofOdd_cases (rest : Text) (k : Nat) :
    (ofOdd rest k = .failure Parser.sequenceLabel (Text.letters k rest) ↔ k = 0) ∧
      (k ≠ 0 → ∃ m, IsGreatest {m | Odd m ∧ m ≤ k} m ∧
        ofOdd rest k = .success (.text [.ofChar 'a']) (Text.letters (k - m) rest)) := by
  match k with
  | 0 => exact ⟨iff_of_true rfl rfl, fun h => absurd rfl h⟩
  | k + 1 =>
      refine ⟨iff_of_false nofun (Nat.succ_ne_zero k), fun _ => ⟨_, isGreatest_odd k, ?_⟩⟩
      rw [Nat.sub_sub_self (by omega), ofOdd]

theorem ofEven_cases (rest : Text) (k : Nat) :
    (ofEven rest k = .failure Parser.sequenceLabel (Text.letters k rest) ↔ k < 2) ∧
      (2 ≤ k → ∃ m, IsGreatest {m | Even m ∧ m ≤ k} m ∧
        ofEven rest k = .success (.text [.ofChar 'a']) (Text.letters (k - m) rest)) := by
  match k with
  | 0 => exact ⟨iff_of_true rfl (by decide), fun h => absurd h (by decide)⟩
  | 1 => exact ⟨iff_of_true rfl (by decide), fun h => absurd h (by decide)⟩
  | k + 2 =>
      refine ⟨iff_of_false nofun (by omega), fun _ => ⟨_, isGreatest_even (k + 2), ?_⟩⟩
      rw [Nat.sub_sub_self (by omega), Nat.add_mod_right, ofEven]

end Reply

namespace Grammar

variable {g : Grammar} {s : Settings} {odd even : Nat} {t rest e u : Text} {r : Reply}

/-- Where there is no letter, the first cell fails as the sequence of its left side. -/
theorem concludes_odd_of_other
    (hodd : g.cells[odd]? = some (some (Parser.oddLetters even)))
    (ht : t.head? ≠ some (.ofChar 'a')) :
    g.Concludes s (.cell odd) t (.ok (.failure Parser.sequenceLabel t)) :=
  concludes_cell hodd (concludes_orElse_of_failures
    (concludes_andThen_of_failure (concludes_char_of_head?_ne ht))
    (concludes_char_of_head?_ne ht))

theorem concludes_even_of_other
    (heven : g.cells[even]? = some (some (Parser.evenLetters odd)))
    (ht : t.head? ≠ some (.ofChar 'a')) :
    g.Concludes s (.cell even) t (.ok (.failure Parser.sequenceLabel t)) :=
  concludes_cell heven (concludes_andThen_of_failure (concludes_char_of_head?_ne ht))

/-- On a letter, the first cell reads what the other one reads after it, or the letter
alone. -/
theorem concludes_odd (hodd : g.cells[odd]? = some (some (Parser.oddLetters even)))
    (h : g.Concludes s (.cell even) t (.ok r)) :
    g.Concludes s (.cell odd) (.ofChar 'a' :: t)
      (.ok (if r.isSuccess then r else .success (.text [.ofChar 'a']) t)) := by
  have hboth := concludes_andThen (concludes_char (.ofChar 'a') t) rfl h
  by_cases hr : r.isSuccess
  · rw [if_pos hr] at hboth ⊢
    exact concludes_cell hodd (concludes_orElse_of_success hboth hr (concludes_char _ t))
  · rw [if_neg hr] at hboth ⊢
    exact concludes_cell hodd (concludes_orElse_of_failure hboth (concludes_char _ t) rfl)

/-- On a letter, the second cell reads what the first one reads after it, or fails. -/
theorem concludes_even (heven : g.cells[even]? = some (some (Parser.evenLetters odd)))
    (h : g.Concludes s (.cell odd) t (.ok r)) :
    g.Concludes s (.cell even) (.ofChar 'a' :: t)
      (.ok (if r.isSuccess then r else
        .failure Parser.sequenceLabel (.ofChar 'a' :: t))) :=
  concludes_cell heven (concludes_andThen (concludes_char _ t) rfl h)

/-- The replies of both cells, by induction on the number of letters. -/
theorem concludes_letters (hodd : g.cells[odd]? = some (some (Parser.oddLetters even)))
    (heven : g.cells[even]? = some (some (Parser.evenLetters odd)))
    (hrest : rest.head? ≠ some (.ofChar 'a')) (k : Nat) :
    g.Concludes s (.cell odd) (Text.letters k rest) (.ok (.ofOdd rest k)) ∧
      g.Concludes s (.cell even) (Text.letters k rest) (.ok (.ofEven rest k)) := by
  induction k with
  | zero => exact ⟨concludes_odd_of_other hodd hrest, concludes_even_of_other heven hrest⟩
  | succ k ih =>
      have hodd' := concludes_odd hodd ih.2
      have heven' := concludes_even heven ih.1
      constructor
      · match k with
        | 0 => exact hodd'
        | 1 => exact hodd'
        | k + 2 =>
            rw [Reply.ofOdd, Nat.add_mod_right]
            exact hodd'
      · match k with
        | 0 => exact heven'
        | k + 1 => exact heven'

/-- **Counting by turns.**  On any number of letters and a text that does not begin with
another one, the first cell fails exactly if there is no letter, and otherwise reads the
greatest odd number of them.  The second fails exactly if there are less than two, and
otherwise reads the greatest even number of them.  The output is the last letter, and a
failure is one of a sequence on the whole text. -/
theorem reads_parity (hodd : g.cells[odd]? = some (some (Parser.oddLetters even)))
    (heven : g.cells[even]? = some (some (Parser.evenLetters odd))) (s : Settings) (k : Nat)
    (hrest : rest.head? ≠ some (.ofChar 'a')) :
    let input := Text.letters k rest
    ((g.Returns s (.cell odd) input (.failure Parser.sequenceLabel input) ↔ k = 0) ∧
      (k ≠ 0 → ∃ m, IsGreatest {m | Odd m ∧ m ≤ k} m ∧
        g.Returns s (.cell odd) input
          (.success (.text [.ofChar 'a']) (Text.letters (k - m) rest)))) ∧
    ((g.Returns s (.cell even) input (.failure Parser.sequenceLabel input) ↔ k < 2) ∧
      (2 ≤ k → ∃ m, IsGreatest {m | Even m ∧ m ≤ k} m ∧
        g.Returns s (.cell even) input
          (.success (.text [.ofChar 'a']) (Text.letters (k - m) rest)))) := by
  intro input
  obtain ⟨hreadOdd, hreadEven⟩ := concludes_letters (s := s) hodd heven hrest k
  rw [concludes_ok_iff] at hreadOdd hreadEven
  simp only [input, hreadOdd.iff_eq, hreadEven.iff_eq]
  exact ⟨Reply.ofOdd_cases rest k, Reply.ofEven_cases rest k⟩

/-- Two cells, each of which is tied to a parser that calls the other. -/
def parityCells : Grammar where
  cells := [some (Parser.oddLetters 1), some (Parser.evenLetters 0)]

/-- Of four letters one cell leaves one, and the other one none. -/
theorem parityCells_read_letters :
    (do let (g, odd) := ({} : Grammar).declare
        let (g, even) := g.declare
        (← g.tie odd (.oddLetters 1)).tie even (.evenLetters 0)) = .ok parityCells ∧
      parityCells.cells[0]? = some (some (Parser.oddLetters 1)) ∧
      parityCells.cells[1]? = some (some (Parser.evenLetters 0)) ∧
      ("b" : Text).head? ≠ some (.ofChar 'a') ∧
      ∀ s, parityCells.Returns s (.cell 0) "aaaab" (.success (.text "a") "ab") ∧
        parityCells.Returns s (.cell 1) "aaaab" (.success (.text "a") "b") := by
  have hodd : parityCells.cells[0]? = some (some (Parser.oddLetters 1)) := rfl
  have heven : parityCells.cells[1]? = some (some (Parser.evenLetters 0)) := rfl
  have hrest : ("b" : Text).head? ≠ some (.ofChar 'a') := by decide
  refine ⟨rfl, hodd, heven, hrest, fun s => ?_⟩
  obtain ⟨⟨-, hreadOdd⟩, -, hreadEven⟩ := reads_parity hodd heven s 4 hrest
  obtain ⟨m, hm, hreadOdd⟩ := hreadOdd (by decide)
  obtain ⟨n, hn, hreadEven⟩ := hreadEven (by decide)
  obtain rfl : m = 3 := hm.unique (isGreatest_odd 3)
  obtain rfl : n = 4 := hn.unique (isGreatest_even 4)
  exact ⟨hreadOdd, hreadEven⟩

end Grammar

end ParserAlgebra
