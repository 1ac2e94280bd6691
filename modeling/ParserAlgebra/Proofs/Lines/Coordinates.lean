import Mathlib.Algebra.Ring.Nat
import ParserAlgebra.Proofs.Lines
/-!
# Coordinates and positions

The coordinates of a position are found by counting backwards from it.  Seen from
the lines between the line feeds they are an address: the number of a line, and a
place in this line or at its end.  The positions of a text and the addresses in its
lines are the same, in the same order.

Everything is shown along the lines of a text (`lines_induction`).  A position is
on the first of them, or it is one of the text after the first line feed, where
all coordinates are one line less.

* `Position.Within`: the addresses in given lines.
* `Position.offset`: how much comes before an address when each line ends with one
  more code point.
* `lineColumn_within`, `offset_lineColumn`: a position has an address, and it is
  the offset of this address.
* `lineColumn_offset`: an address is that of its offset.
* `lineColumn_before`: what comes later in the text comes later among the addresses.
* `lineColumn_bijective`: all of this together.
-/

namespace ParserAlgebra

namespace Position

/-- The first or a later place in the lines: in one of them, or at its end. -/
structure Within (lines : List Text) (p : Position) : Prop where
  one_le_line : 1 ≤ p.line
  line_le : p.line ≤ lines.length
  one_le_column : 1 ≤ p.column
  column_le : p.column ≤ lines[p.line - 1].length + 1

/-- The lines above with a line feed each, and the beginning of the line itself. -/
def offset (lines : List Text) (p : Position) : Nat :=
  ((lines.take (p.line - 1)).map (·.length + 1)).sum + (p.column - 1)

/-- On an earlier line, or further left on the same one. -/
def Before (p q : Position) : Prop :=
  p.line < q.line ∨ p.line = q.line ∧ p.column < q.column

/-- The same place when one more line is put above. -/
def below (p : Position) : Position := ⟨p.line + 1, p.column⟩

variable {line : Text} {lines : List Text} {p q : Position}

/-- An address is on the first line, or it is one in the other lines. -/
theorem within_cons_iff :
    p.Within (line :: lines) ↔
      (∃ pos ≤ line.length, p = ⟨1, pos + 1⟩) ∨
        ∃ q : Position, q.Within lines ∧ p = q.below := by
  constructor
  · intro h
    obtain ⟨number, column⟩ := p
    obtain ⟨hnumber, hle, hcolumn, hlength⟩ := h
    match number with
    | 0 => cases hnumber
    | 1 =>
        refine .inl ⟨column - 1, Nat.sub_le_of_le_add hlength, ?_⟩
        rw [Nat.sub_add_cancel hcolumn]
    | number + 2 =>
        refine .inr ⟨⟨number + 1, column⟩, ⟨?_, ?_, hcolumn, hlength⟩, rfl⟩
        · exact Nat.le_add_left 1 number
        · exact Nat.le_of_succ_le_succ hle
  · rintro (⟨pos, hpos, rfl⟩ | ⟨⟨number, column⟩, ⟨hnumber, hle, hcolumn, hlength⟩, rfl⟩)
    · exact ⟨Nat.le_refl 1, Nat.le_add_left 1 lines.length, Nat.le_add_left 1 pos,
        Nat.succ_le_succ hpos⟩
    · match number with
      | 0 => cases hnumber
      | number + 1 =>
          exact ⟨Nat.le_add_left 1 (number + 1), Nat.succ_le_succ hle, hcolumn, hlength⟩

theorem Within.below (h : q.Within lines) : q.below.Within (line :: lines) :=
  within_cons_iff.mpr (.inr ⟨q, h, rfl⟩)

@[simp]
theorem offset_first (line : Text) (lines : List Text) (pos : Nat) :
    offset (line :: lines) ⟨1, pos + 1⟩ = pos := by
  simp [offset]

theorem offset_below (h : 1 ≤ p.line) :
    p.below.offset (line :: lines) = line.length + 1 + p.offset lines := by
  obtain ⟨number, hnumber⟩ := Nat.exists_eq_add_of_le' h
  simp [offset, below, hnumber]
  omega

theorem Before.below (h : p.Before q) : p.below.Before q.below := by
  simp only [Before, Position.below] at h ⊢
  omega

end Position

namespace Text

variable {line text : Text} {pos m n : Nat} {p : Position}

/-- Induction along the lines of a text. -/
@[elab_as_elim]
theorem lines_induction {motive : Text → Prop}
    (last : ∀ line, newline ∉ line → motive line)
    (further : ∀ line rest, newline ∉ line → motive rest → motive (line ++ newline :: rest))
    (text : Text) : motive text := by
  by_cases h : newline ∈ text
  · obtain ⟨line, rest, htext, hline⟩ := List.eq_append_cons_of_mem h
    have hlt : rest.length < text.length := by
      rw [htext, List.length_append, List.length_cons]
      omega
    rw [htext]
    exact further line rest hline (lines_induction last further rest)
  · exact last text h
termination_by text.length

theorem splitOn_last (h : newline ∉ line) : line.splitOn newline = [line] :=
  List.splitOn_eq_singleton h

theorem splitOn_further (h : newline ∉ line) (rest : Text) :
    (line ++ newline :: rest).splitOn newline = line :: rest.splitOn newline :=
  List.splitOn_append_cons_self_of_not_mem h rest

theorem one_le_line_lineColumn (text : Text) (pos : Nat) : 1 ≤ (text.lineColumn pos).line :=
  Nat.le_add_left 1 _

/-- A position on the first line. -/
theorem lineColumn_first (hline : newline ∉ line) (hpos : pos ≤ line.length) (rest : Text) :
    (line ++ rest).lineColumn pos = ⟨1, pos + 1⟩ := by
  have hnot : newline ∉ line.take pos := fun h => hline (List.mem_of_mem_take h)
  have hall : ∀ c ∈ (line.take pos).reverse, decide (c ≠ newline) = true := by
    intro c hc
    refine decide_eq_true ?_
    rintro rfl
    exact hnot (List.mem_reverse.mp hc)
  unfold lineColumn
  rw [List.take_append_of_le_length hpos, List.count_eq_zero.mpr hnot,
    List.takeWhile_eq_self_iff.mpr hall, List.length_reverse, List.length_take,
    Nat.min_eq_left hpos]

/-- A position after the first line feed. -/
theorem lineColumn_further (hline : newline ∉ line) (rest : Text) (pos : Nat) :
    (line ++ newline :: rest).lineColumn (line.length + 1 + pos) =
      (rest.lineColumn pos).below := by
  have htake : (line ++ newline :: rest).take (line.length + 1 + pos) =
      line ++ newline :: rest.take pos := by
    rw [Nat.add_assoc, List.take_length_add_append, Nat.add_comm 1 pos, List.take_succ_cons]
  -- Backwards from the position, the first line feed comes after all that the line has.
  have hcolumn : ((line ++ newline :: rest.take pos).reverse.takeWhile (· ≠ newline)) =
      (rest.take pos).reverse.takeWhile (· ≠ newline) := by
    rw [List.reverse_append, List.reverse_cons, List.append_assoc]
    exact takeWhile_append_of_takeWhile_eq_nil (List.takeWhile_cons_of_neg (by simp)) _
  unfold lineColumn Position.below
  rw [htake, hcolumn, List.count_append, List.count_eq_zero.mpr hline, List.count_cons_self,
    Nat.zero_add]

/-- A position that is not on the first line comes after the first line feed. -/
theorem le_length_or_exists_further (line rest : Text)
    (hpos : pos ≤ (line ++ newline :: rest).length) :
    pos ≤ line.length ∨ ∃ further ≤ rest.length, pos = line.length + 1 + further := by
  rw [List.length_append, List.length_cons] at hpos
  by_cases h : pos ≤ line.length
  · exact .inl h
  · exact .inr ⟨pos - (line.length + 1), by omega, by omega⟩

/-- The coordinates of a position are those of a place in the lines, or at the end of
one. -/
theorem lineColumn_within (hpos : pos ≤ text.length) :
    (text.lineColumn pos).Within (text.splitOn newline) := by
  induction text using lines_induction generalizing pos with
  | last line hline =>
      rw [splitOn_last hline, ← List.append_nil line, lineColumn_first hline hpos []]
      exact Position.within_cons_iff.mpr (.inl ⟨pos, by simpa using hpos, rfl⟩)
  | further line rest hline ih =>
      rw [splitOn_further hline]
      rcases le_length_or_exists_further line rest hpos with hfirst | ⟨pos, hrest, rfl⟩
      · rw [lineColumn_first hline hfirst]
        exact Position.within_cons_iff.mpr (.inl ⟨pos, hfirst, rfl⟩)
      · rw [lineColumn_further hline]
        exact (ih hrest).below

/-- What comes before a position is what comes before its coordinates. -/
theorem offset_lineColumn (hpos : pos ≤ text.length) :
    (text.lineColumn pos).offset (text.splitOn newline) = pos := by
  induction text using lines_induction generalizing pos with
  | last line hline =>
      rw [splitOn_last hline, ← List.append_nil line, lineColumn_first hline hpos [],
        Position.offset_first]
  | further line rest hline ih =>
      rw [splitOn_further hline]
      rcases le_length_or_exists_further line rest hpos with hfirst | ⟨pos, hrest, rfl⟩
      · rw [lineColumn_first hline hfirst, Position.offset_first]
      · rw [lineColumn_further hline,
          Position.offset_below (one_le_line_lineColumn rest pos), ih hrest]

/-- Every place in the lines has its position in the text. -/
theorem lineColumn_offset (hp : p.Within (text.splitOn newline)) :
    p.offset (text.splitOn newline) ≤ text.length ∧
      text.lineColumn (p.offset (text.splitOn newline)) = p := by
  induction text using lines_induction generalizing p with
  | last line hline =>
      rw [splitOn_last hline] at hp ⊢
      rcases Position.within_cons_iff.mp hp with ⟨pos, hpos, rfl⟩ | ⟨q, hq, rfl⟩
      · rw [Position.offset_first]
        refine ⟨hpos, ?_⟩
        rw [← List.append_nil line, lineColumn_first hline hpos]
      · exact absurd hq.line_le (Nat.not_le_of_gt hq.one_le_line)
  | further line rest hline ih =>
      rw [splitOn_further hline] at hp ⊢
      rcases Position.within_cons_iff.mp hp with ⟨pos, hpos, rfl⟩ | ⟨q, hq, rfl⟩
      · rw [Position.offset_first, List.length_append]
        exact ⟨Nat.le_add_right_of_le hpos, lineColumn_first hline hpos _⟩
      · obtain ⟨hle, heq⟩ := ih hq
        rw [Position.offset_below hq.one_le_line, lineColumn_further hline, heq,
          List.length_append, List.length_cons]
        exact ⟨by omega, rfl⟩

/-- Positions and their coordinates are in the same order. -/
theorem lineColumn_before (hlt : m < n) (hn : n ≤ text.length) :
    (text.lineColumn m).Before (text.lineColumn n) := by
  induction text using lines_induction generalizing m n with
  | last line hline =>
      rw [← List.append_nil line, lineColumn_first hline (Nat.le_of_lt (hlt.trans_le hn)) [],
        lineColumn_first hline hn []]
      exact .inr ⟨rfl, Nat.succ_lt_succ hlt⟩
  | further line rest hline ih =>
      rcases le_length_or_exists_further line rest hn with hfirst | ⟨n, hrest, rfl⟩
      · rw [lineColumn_first hline (Nat.le_of_lt (hlt.trans_le hfirst)),
          lineColumn_first hline hfirst]
        exact .inr ⟨rfl, Nat.succ_lt_succ hlt⟩
      · rw [lineColumn_further hline]
        by_cases hm : m ≤ line.length
        · rw [lineColumn_first hline hm]
          exact .inl (Nat.succ_lt_succ (one_le_line_lineColumn rest n))
        · obtain ⟨m, rfl⟩ := Nat.exists_eq_add_of_le (Nat.lt_of_not_le hm)
          rw [lineColumn_further hline]
          exact (ih (Nat.lt_of_add_lt_add_left hlt) hrest).below

/-- Between the positions of a text and the places in its lines there is a bijection
which keeps the order.  Beyond the end there are no further places. -/
theorem lineColumn_bijective (text : Text) :
    (∀ pos ≤ text.length,
      (text.lineColumn pos).Within (text.splitOn newline) ∧
        pos = (text.lineColumn pos).offset (text.splitOn newline)) ∧
    (∀ m ≤ text.length, ∀ n ≤ text.length, text.lineColumn m = text.lineColumn n → m = n) ∧
    (∀ m n, m < n → n ≤ text.length → (text.lineColumn m).Before (text.lineColumn n)) ∧
    (∀ p : Position, p.Within (text.splitOn newline) →
      ∃ pos, (pos ≤ text.length ∧ text.lineColumn pos = p) ∧
        ∀ other, other ≤ text.length ∧ text.lineColumn other = p → other = pos) ∧
    (∀ pos, text.length < pos → text.lineColumn pos = text.lineColumn text.length) := by
  have hinjective : ∀ m ≤ text.length, ∀ n ≤ text.length,
      text.lineColumn m = text.lineColumn n → m = n := by
    intro m hm n hn h
    calc
      m = (text.lineColumn m).offset (text.splitOn newline) := (offset_lineColumn hm).symm
      _ = (text.lineColumn n).offset (text.splitOn newline) := by rw [h]
      _ = n := offset_lineColumn hn
  refine ⟨?_, hinjective, fun m n => lineColumn_before, ?_, ?_⟩
  · intro pos hpos
    exact ⟨lineColumn_within hpos, (offset_lineColumn hpos).symm⟩
  · intro p hp
    obtain ⟨hle, heq⟩ := lineColumn_offset hp
    refine ⟨_, ⟨hle, heq⟩, ?_⟩
    rintro other ⟨hother, hat⟩
    exact hinjective other hother _ hle (hat.trans heq.symm)
  · intro pos hpos
    rw [← lineColumn_min text pos, Nat.min_eq_right (Nat.le_of_lt hpos)]

/-- A line feed is on the line that it ends, and after the last one comes an empty line. -/
example : (List.range 6).map (lineColumn "a\n\nb\n") =
    [⟨1, 1⟩, ⟨1, 2⟩, ⟨2, 1⟩, ⟨3, 1⟩, ⟨3, 2⟩, ⟨4, 1⟩] := by decide

end Text

end ParserAlgebra
