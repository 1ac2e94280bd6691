import ParserAlgebra.Proofs.Repetition.CodePoints
import ParserAlgebra.Draft
/-!
# Nested brackets

A cell that is digits, or else itself between brackets, reads digits in any number of
brackets.  What the definition does on a bracket is told by what the cell does on the
text after it, whatever that is: there are three ways to go on, one for each way in
which the text inside can end.

* `concludes_bracket`, `concludes_bracket_of_failure`, `concludes_bracket_of_unclosed`:
  one bracket, after which the cell reads up to a closing bracket, fails, or reads up to
  something else.
* `concludes_brackets` and its like: any number of brackets, by induction on it.
* `nested_reads_iff`: the cell succeeds on brackets and a text that does not begin with
  another one exactly if the text is at least one digit and as many closing brackets.
-/

namespace ParserAlgebra

/-- The cell between brackets, or else digits: digits in brackets, if it is the
definition of the cell. -/
def Parser.nested (id : Nat) : Parser :=
  (between (char '(') (char ')') (cell id)).orElse digit.atLeastOne

/-- What follows the longest beginning of a kind is all the rest. -/
theorem eq_takeWhile_append_iff {α : Type} (p : α → Bool) (l u : List α) :
    l = l.takeWhile p ++ u ↔ l.dropWhile p = u := by
  have hparts : l.takeWhile p ++ l.dropWhile p = l := List.takeWhile_append_dropWhile
  constructor
  · intro h
    exact List.append_cancel_left (hparts.trans h)
  · rintro rfl
    exact hparts.symm

/-- A list begins with as many copies of something, or there are fewer of them and then
something else. -/
theorem exists_replicate_append {α : Type} (a : α) (n : Nat) (l : List α) :
    (∃ rest, l = List.replicate n a ++ rest) ∨
      ∃ k < n, ∃ rest, l = List.replicate k a ++ rest ∧ rest.head? ≠ some a := by
  induction n generalizing l with
  | zero => exact .inl ⟨l, rfl⟩
  | succ n ih =>
      by_cases h : l.head? = some a
      · obtain ⟨l, rfl⟩ := List.head?_eq_some_iff.mp h
        rcases ih l with ⟨rest, rfl⟩ | ⟨k, hk, rest, rfl, hrest⟩
        · exact .inl ⟨rest, rfl⟩
        · exact .inr ⟨k + 1, Nat.succ_lt_succ hk, rest, rfl, hrest⟩
      · exact .inr ⟨0, Nat.succ_pos n, l, rfl, h⟩

/-- It does not begin with more copies than there are. -/
theorem head?_of_replicate_append_eq {α : Type} {a : α} {k n : Nat} {rest rest' : List α}
    (hk : k < n) (h : List.replicate k a ++ rest = List.replicate n a ++ rest') :
    rest.head? = some a := by
  obtain ⟨m, rfl⟩ := Nat.exists_eq_add_of_lt hk
  rw [Nat.add_assoc, ← List.replicate_append_replicate, List.append_assoc] at h
  rw [List.append_cancel_left h]
  rfl

namespace Grammar

variable {g : Grammar} {s : Settings} {id : Nat} {t rest e u : Text} {v : Value}

/-- Without a bracket there is nothing to read between brackets. -/
theorem concludes_between_of_head?_ne (ht : t.head? ≠ some (.ofChar '(')) :
    g.Concludes s (.between (.char '(') (.char ')') (.cell id)) t
      (.ok (.failure (Text.call "char" [.ofChar '(']) t)) :=
  concludes_keepFirst_of_failure
    (concludes_bind_of_failure (concludes_char_of_head?_ne ht))

/-- A bracket is not a digit, and the cell after it reads what it reads there. -/
theorem concludes_opened {r : Reply} (h : g.Concludes s (.cell id) t (.ok r)) :
    g.Concludes s ((Parser.char '(').keepSecond (.cell id)) (.ofChar '(' :: t) (.ok r) ∧
      g.Concludes s Parser.digit.atLeastOne (.ofChar '(' :: t)
        (.ok (.failure "digitChar" (.ofChar '(' :: t))) :=
  ⟨concludes_bind_of_accepted? (concludes_char _ t) rfl h,
    concludes_atLeastOne_satisfy_of_nil (List.takeWhile_cons_of_neg (by decide))⟩

section Cell

variable (hcell : g.cells[id]? = some (some (Parser.nested id)))

include hcell

/-- Digits without a bracket. -/
theorem concludes_nested_digits (ht : t.head? ≠ some (.ofChar '('))
    (hd : t.takeWhile Alphabet.decimal.contains ≠ []) :
    g.Concludes s (.cell id) t (.ok (.success
      (.list ((t.takeWhile Alphabet.decimal.contains).map fun c => .text [c]))
      (t.dropWhile Alphabet.decimal.contains))) :=
  concludes_cell hcell (concludes_orElse_of_failure (concludes_between_of_head?_ne ht)
    (concludes_atLeastOne_satisfy hd) rfl)

/-- Neither a bracket nor a digit. -/
theorem concludes_nested_of_no_digits (ht : t.head? ≠ some (.ofChar '('))
    (hd : t.takeWhile Alphabet.decimal.contains = []) :
    g.Concludes s (.cell id) t (.ok (.failure (Text.call "char" [.ofChar '(']) t)) :=
  concludes_cell hcell (concludes_orElse_of_failures (concludes_between_of_head?_ne ht)
    (concludes_atLeastOne_satisfy_of_nil hd))

theorem concludes_bracket
    (h : g.Concludes s (.cell id) t (.ok (.success v (.ofChar ')' :: rest)))) :
    g.Concludes s (.cell id) (.ofChar '(' :: t) (.ok (.success v rest)) := by
  obtain ⟨hopened, hdigits⟩ := concludes_opened h
  have hbetween := concludes_keepFirst hopened rfl (concludes_char _ rest) rfl
  exact concludes_cell hcell (concludes_orElse_of_success hbetween rfl hdigits)

theorem concludes_bracket_of_failure
    (h : g.Concludes s (.cell id) t (.ok (.failure e u))) :
    g.Concludes s (.cell id) (.ofChar '(' :: t) (.ok (.failure e u)) := by
  obtain ⟨hopened, hdigits⟩ := concludes_opened h
  have hbetween := concludes_keepFirst_of_failure (q := .char ')') hopened
  exact concludes_cell hcell (concludes_orElse_of_failures hbetween hdigits)

theorem concludes_bracket_of_unclosed (h : g.Concludes s (.cell id) t (.ok (.success v rest)))
    (hrest : rest.head? ≠ some (.ofChar ')')) :
    g.Concludes s (.cell id) (.ofChar '(' :: t)
      (.ok (.failure (Text.call "char" [.ofChar ')']) rest)) := by
  obtain ⟨hopened, hdigits⟩ := concludes_opened h
  have hbetween := concludes_keepFirst_of_failure_right hopened rfl
    (concludes_char_of_head?_ne hrest)
  exact concludes_cell hcell (concludes_orElse_of_failures hbetween hdigits)

/-- As many closing brackets as opening ones. -/
theorem concludes_brackets {n : Nat} (h : g.Concludes s (.cell id) t
      (.ok (.success v (List.replicate n (.ofChar ')') ++ rest)))) :
    g.Concludes s (.cell id) (List.replicate n (.ofChar '(') ++ t) (.ok (.success v rest)) := by
  induction n generalizing rest with
  | zero => exact h
  | succ n ih =>
      rw [List.replicate_succ', List.append_assoc] at h
      exact concludes_bracket hcell (ih h)

/-- A failure inside is that of all the brackets around it. -/
theorem concludes_brackets_of_failure (h : g.Concludes s (.cell id) t (.ok (.failure e u)))
    (n : Nat) :
    g.Concludes s (.cell id) (List.replicate n (.ofChar '(') ++ t) (.ok (.failure e u)) := by
  induction n with
  | zero => exact h
  | succ n ih => exact concludes_bracket_of_failure hcell ih

/-- Fewer closing brackets than opening ones. -/
theorem concludes_brackets_of_unclosed {k n : Nat} (hk : k < n)
    (h : g.Concludes s (.cell id) t
      (.ok (.success v (List.replicate k (.ofChar ')') ++ rest))))
    (hrest : rest.head? ≠ some (.ofChar ')')) :
    g.Concludes s (.cell id) (List.replicate n (.ofChar '(') ++ t)
      (.ok (.failure (Text.call "char" [.ofChar ')']) rest)) := by
  obtain ⟨m, rfl⟩ := Nat.exists_eq_add_of_lt hk
  have hinner := concludes_bracket_of_unclosed hcell (concludes_brackets hcell h) hrest
  have houter := concludes_brackets_of_failure hcell hinner m
  rwa [← List.cons_append, ← List.replicate_succ, ← List.append_assoc,
    List.replicate_append_replicate, Nat.add_comm m (k + 1), Nat.add_right_comm] at houter

/-- **Nested brackets.**  On any number of opening brackets and a text that does not
begin with another one, the cell always gives a reply.  It is a success exactly if the
text begins with a digit and the digits at its beginning are followed by as many closing
brackets, and then the output is the list of these digits. -/
theorem nested_reads_iff (s : Settings) (n : Nat) (ht : t.head? ≠ some (.ofChar '(')) :
    let digits := t.takeWhile Alphabet.decimal.contains
    ∃ r, g.Returns s (.cell id) (List.replicate n (.ofChar '(') ++ t) r ∧
      (∀ rest, r = .success (.list (digits.map fun c => .text [c])) rest ↔
        digits ≠ [] ∧ t = digits ++ (List.replicate n (.ofChar ')') ++ rest)) ∧
      (r.isSuccess ↔
        ∃ rest, digits ≠ [] ∧ t = digits ++ (List.replicate n (.ofChar ')') ++ rest)) := by
  intro digits
  have hsplit := eq_takeWhile_append_iff Alphabet.decimal.contains t
  by_cases hd : digits = []
  · have hfail := concludes_brackets_of_failure hcell
      (concludes_nested_of_no_digits (s := s) hcell ht hd) n
    refine ⟨_, concludes_ok_iff.mp hfail, fun rest => ?_, ?_⟩
    · exact iff_of_false nofun fun h => h.1 hd
    · exact iff_of_false Bool.false_ne_true fun ⟨_, h, _⟩ => h hd
  have hinside := concludes_nested_digits (s := s) hcell ht hd
  rcases exists_replicate_append (.ofChar ')') n (t.dropWhile Alphabet.decimal.contains)
    with ⟨rest, hrest⟩ | ⟨k, hk, rest, hrest, hhead⟩
  · rw [hrest] at hinside
    refine ⟨_, concludes_ok_iff.mp (concludes_brackets hcell hinside), fun rest' => ?_, ?_⟩
    · rw [hsplit, hrest]
      constructor
      · intro h
        cases h
        exact ⟨hd, rfl⟩
      · rintro ⟨-, h⟩
        rw [List.append_cancel_left h]
    · exact iff_of_true rfl ⟨rest, hd, (hsplit _).mpr hrest⟩
  · rw [hrest] at hinside
    have hfew : ∀ rest', t ≠ digits ++ (List.replicate n (.ofChar ')') ++ rest') := by
      intro rest' h
      rw [hsplit, hrest] at h
      exact hhead (head?_of_replicate_append_eq hk h)
    have hfail := concludes_brackets_of_unclosed hcell hk hinside hhead
    refine ⟨_, concludes_ok_iff.mp hfail, fun rest' => ?_, ?_⟩
    · exact iff_of_false nofun fun h => hfew rest' h.2
    · exact iff_of_false Bool.false_ne_true fun ⟨rest', _, h⟩ => hfew rest' h

end Cell

/-- One cell, which is tied to digits in brackets. -/
def nestedCell : Grammar where
  cells := [some (Parser.nested 0)]

/-- Two brackets are opened, and of three closing ones two belong to them. -/
theorem nestedCell_reads_digits :
    ({} : Grammar).declare.1.tie ({} : Grammar).declare.2 (Parser.nested 0) = .ok nestedCell ∧
      nestedCell.cells[0]? = some (some (Parser.nested 0)) ∧
      (("12)))" : Text)).head? ≠ some (.ofChar '(') ∧
      ∀ s, nestedCell.Returns s (.cell 0) "((12)))"
        (.success (.list [.text "1", .text "2"]) ")") := by
  have hcell : nestedCell.cells[0]? = some (some (Parser.nested 0)) := rfl
  have hhead : (("12)))" : Text)).head? ≠ some (.ofChar '(') := by decide
  refine ⟨rfl, hcell, hhead, fun s => ?_⟩
  obtain ⟨r, hreturns, hiff, -⟩ := nested_reads_iff hcell s 2 hhead
  obtain rfl := (hiff ")").mpr (by decide)
  exact hreturns

end Grammar

end ParserAlgebra
