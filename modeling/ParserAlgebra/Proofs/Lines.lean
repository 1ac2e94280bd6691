import Mathlib.Data.List.DropRight
import ParserAlgebra.Text.Lines
/-!
# Two notions of a line

The coordinates of a position count line feeds only.  The lines of a text end at
every line break.  This file says what the one has to do with the other.

A position cuts its text in four: what comes before its line, the part of its
line before it, the part of its line from it on, and what comes from the next
line feed on.

* `lineColumn_eq`: the coordinates are the number of line feeds before the line,
  and the length of the line before the position.
* `splitLines_append`: a text that ends with a line feed is split apart from what
  follows it.
* `count_newline_le_length_splitLines`, `length_splitLines_eq_iff`: such a text
  has at least as many lines as line feeds, and exactly as many if each of its
  line breaks is a line feed, alone or after a carriage return.
* `getElem?_splitLines_of_feedsOnly`: if all line breaks before the line of a
  position are of this kind, then the line that the coordinates name begins where
  the line of the position does.
* `getElem?_splitLines_of_not_feedsOnly`: otherwise it is a line further up.
-/

namespace ParserAlgebra.Text

/-- What comes before the line of a position: all up to the last line feed before
the position. -/
def beforeLine (text : Text) (pos : Nat) : Text :=
  (text.take pos).rdropWhile (· ≠ newline)

/-- The line of a position, as far as it comes before the position. -/
def lineStart (text : Text) (pos : Nat) : Text :=
  (text.take pos).rtakeWhile (· ≠ newline)

/-- The line of a position: the text between the last line feed before the position
and the next line feed at or after it. -/
def lineAt (text : Text) (pos : Nat) : Text :=
  text.lineStart pos ++ (text.drop pos).takeWhile (· ≠ newline)

/-- What comes after the line of a position, its line feed included. -/
def afterLine (text : Text) (pos : Nat) : Text :=
  (text.drop pos).dropWhile (· ≠ newline)

/-- The text is empty or ends with a line feed. -/
def EndsLine (text : Text) : Prop := ∀ c ∈ text.getLast?, c = newline

/-- Each code point that ends a line is a line feed, or a carriage return right
before one. -/
def FeedsOnly : Text → Prop
  | [] => True
  | c :: rest =>
    (isLineBreak c → c = newline ∨ (c.value = 0x0D ∧ rest.head? = some newline)) ∧
      FeedsOnly rest

instance FeedsOnly.decidable : (text : Text) → Decidable text.FeedsOnly
  | [] => .isTrue trivial
  | _ :: rest =>
    have := FeedsOnly.decidable rest
    inferInstanceAs (Decidable (_ ∧ _))

variable {text : Text} {pos : Nat}

theorem beforeLine_append_lineStart (text : Text) (pos : Nat) :
    text.beforeLine pos ++ text.lineStart pos = text.take pos :=
  List.rdropWhile_append_rtakeWhile

theorem lineAt_append_afterLine (text : Text) (pos : Nat) :
    text.lineAt pos ++ text.afterLine pos = text.lineStart pos ++ text.drop pos := by
  unfold lineAt afterLine
  rw [List.append_assoc, List.takeWhile_append_dropWhile]

/-- The position cuts its text. -/
theorem beforeLine_append_lineAt_append_afterLine (text : Text) (pos : Nat) :
    text.beforeLine pos ++ (text.lineAt pos ++ text.afterLine pos) = text := by
  rw [lineAt_append_afterLine, ← List.append_assoc, beforeLine_append_lineStart,
    List.take_append_drop]

/-- The code point at a position stands in the line of the position, after what comes
before it there. -/
theorem getElem?_lineAt {c : CodePoint} (hc : text[pos]? = some c) (hne : c ≠ newline) :
    (text.lineAt pos)[(text.lineStart pos).length]? = some c := by
  obtain ⟨hpos, rfl⟩ := List.getElem?_eq_some_iff.mp hc
  unfold lineAt
  rw [List.getElem?_append_right (Nat.le_refl _), Nat.sub_self,
    List.drop_eq_getElem_cons hpos, List.takeWhile_cons, if_pos (decide_eq_true hne)]
  rfl

theorem newline_notMem_lineStart (text : Text) (pos : Nat) :
    newline ∉ text.lineStart pos := by
  intro h
  simpa using List.mem_rtakeWhile_imp h

theorem newline_notMem_lineAt (text : Text) (pos : Nat) :
    newline ∉ text.lineAt pos := by
  intro h
  rcases List.mem_append.mp h with h | h
  · exact newline_notMem_lineStart text pos h
  · simpa using List.mem_takeWhile_imp h

theorem endsLine_beforeLine (text : Text) (pos : Nat) :
    (text.beforeLine pos).EndsLine := by
  intro c hc
  obtain ⟨hne, rfl⟩ := List.mem_getLast?_eq_getLast hc
  have hlast := List.rdropWhile_last_not (fun c => decide (c ≠ newline)) (text.take pos) hne
  by_contra hother
  exact hlast (decide_eq_true hother)

/-- The coordinates of a position, by the cut that it makes. -/
theorem lineColumn_eq (text : Text) (pos : Nat) :
    text.lineColumn pos =
      ⟨(text.beforeLine pos).count newline + 1, (text.lineStart pos).length + 1⟩ := by
  have hcount : (text.take pos).count newline = (text.beforeLine pos).count newline := by
    rw [← beforeLine_append_lineStart, List.count_append,
      List.count_eq_zero_of_not_mem (newline_notMem_lineStart text pos), Nat.add_zero]
  unfold lineColumn
  rw [hcount]
  simp [lineStart, List.rtakeWhile]

theorem EndsLine.of_append {rest : Text} (before : Text) (h : (before ++ rest).EndsLine) :
    rest.EndsLine := by
  intro c hc
  refine h c ?_
  rw [Option.mem_def] at hc ⊢
  rw [List.getLast?_append, hc, Option.some_or]

/-- Induction along the line breaks of a text: it is empty, begins with a carriage
return and a line feed, begins with another line break, or with none. -/
@[elab_as_elim]
theorem breaks_induction {motive : Text → Prop}
    (nil : motive [])
    (returnFeed : ∀ (c : CodePoint) (rest : Text), c.value = 0x0D →
      motive rest → motive (c :: newline :: rest))
    (lineBreak : ∀ (c : CodePoint) (rest : Text), isLineBreak c →
      ¬ (c.value = 0x0D ∧ rest.head? = some newline) →
      motive rest → motive (c :: rest))
    (other : ∀ (c : CodePoint) (rest : Text), isLineBreak c = false →
      motive rest → motive (c :: rest)) :
    ∀ text, motive text
  | [] => nil
  | c :: rest => by
      have hrest := breaks_induction nil returnFeed lineBreak other rest
      by_cases hreturn : c.value = 0x0D ∧ rest.head? = some newline
      · obtain ⟨hvalue, hhead⟩ := hreturn
        match rest, hhead with
        | d :: rest, hhead =>
            obtain rfl := Option.some.inj hhead
            exact returnFeed c rest hvalue
              (breaks_induction nil returnFeed lineBreak other rest)
      · cases hbreak : isLineBreak c with
        | true => exact lineBreak c rest hbreak hreturn hrest
        | false => exact other c rest hbreak hrest

theorem eq_newline_of_endsLine {c : CodePoint} (h : EndsLine [c]) : c = newline :=
  h c rfl

namespace splitLines

variable {c : CodePoint}

/-- One code point at a time: it ends the current line, on its own or together with
the next one, or it belongs to the current line. -/
theorem go_cons (current : Text) (c : CodePoint) (rest : Text) :
    go current (c :: rest) =
      if c.value = 0x0D ∧ rest.head? = some newline then
        current.reverse :: go [] rest.tail
      else if isLineBreak c then current.reverse :: go [] rest
      else go (c :: current) rest := by
  cases rest with
  | nil => by_cases hbreak : isLineBreak c <;> simp [go, hbreak]
  | cons d rest => simp [go]

theorem go_returnFeed (hc : c.value = 0x0D) (current rest : Text) :
    go current (c :: newline :: rest) = current.reverse :: go [] rest := by
  rw [go_cons, if_pos ⟨hc, rfl⟩, List.tail_cons]

theorem go_lineBreak {rest : Text} (hbreak : isLineBreak c)
    (hreturn : ¬ (c.value = 0x0D ∧ rest.head? = some newline)) (current : Text) :
    go current (c :: rest) = current.reverse :: go [] rest := by
  rw [go_cons, if_neg hreturn, if_pos hbreak]

theorem go_other (hbreak : isLineBreak c = false) (current rest : Text) :
    go current (c :: rest) = go (c :: current) rest := by
  have hreturn : c.value ≠ 0x0D := by
    intro hvalue
    simp [isLineBreak, hvalue] at hbreak
  rw [go_cons, if_neg fun h => hreturn h.1, hbreak, if_neg Bool.false_ne_true]

theorem go_append (current text rest : Text) (hends : text.EndsLine)
    (hline : text = [] → current = []) :
    go current (text ++ rest) = go current text ++ go [] rest := by
  induction text using breaks_induction generalizing current with
  | nil =>
      rw [hline rfl]
      rfl
  | returnFeed c text hc ih =>
      rw [List.cons_append, List.cons_append, go_returnFeed hc, go_returnFeed hc,
        ih [] (hends.of_append [c, newline]) fun _ => rfl, List.cons_append]
  | lineBreak c text hbreak hreturn ih =>
      -- A carriage return at the very end would take a line feed from what follows.
      have hreturn' : ¬ (c.value = 0x0D ∧ (text ++ rest).head? = some newline) := by
        rintro ⟨hvalue, hhead⟩
        cases text with
        | nil =>
            obtain rfl := eq_newline_of_endsLine hends
            exact absurd hvalue (by decide)
        | cons d text => exact hreturn ⟨hvalue, hhead⟩
      rw [List.cons_append, go_lineBreak hbreak hreturn', go_lineBreak hbreak hreturn,
        ih [] (hends.of_append [c]) fun _ => rfl, List.cons_append]
  | other c text hbreak ih =>
      have hne : text ≠ [] := by
        rintro rfl
        obtain rfl := eq_newline_of_endsLine hends
        exact absurd hbreak (by decide)
      rw [List.cons_append, go_other hbreak, go_other hbreak,
        ih (c :: current) (hends.of_append [c]) fun h => absurd h hne]

/-- The first line goes up to the first line break. -/
theorem head?_go (current text : Text) (h : current ≠ [] ∨ text ≠ []) :
    (go current text).head? =
      some (current.reverse ++ text.takeWhile (!isLineBreak ·)) := by
  induction text using breaks_induction generalizing current with
  | nil =>
      have hcurrent : current ≠ [] := by simpa using h
      simp [go, hcurrent]
  | returnFeed c text hc ih =>
      have hbreak : isLineBreak c := by simp [isLineBreak, hc]
      rw [go_returnFeed hc, List.takeWhile_cons_of_neg (by simp [hbreak]), List.append_nil]
      rfl
  | lineBreak c text hbreak hreturn ih =>
      rw [go_lineBreak hbreak hreturn, List.takeWhile_cons_of_neg (by simp [hbreak]),
        List.append_nil]
      rfl
  | other c text hbreak ih =>
      rw [go_other hbreak, ih (c :: current) (.inl (List.cons_ne_nil c current)),
        List.takeWhile_cons_of_pos (by simp [hbreak])]
      simp

/-- No line holds a line break. -/
theorem isLineBreak_of_mem_go {current text line : Text}
    (hcurrent : ∀ c ∈ current, isLineBreak c = false) (hline : line ∈ go current text) :
    ∀ c ∈ line, isLineBreak c = false := by
  have hreverse : ∀ c ∈ current.reverse, isLineBreak c = false := by
    intro c hc
    exact hcurrent c (List.mem_reverse.mp hc)
  induction text using breaks_induction generalizing current with
  | nil =>
      simp only [go] at hline
      split at hline
      · cases hline
      · rw [List.mem_singleton.mp hline]
        exact hreverse
  | returnFeed c text hc ih =>
      rw [go_returnFeed hc] at hline
      rcases List.mem_cons.mp hline with rfl | hline
      · exact hreverse
      · exact ih (by simp) hline (by simp)
  | lineBreak c text hbreak hreturn ih =>
      rw [go_lineBreak hbreak hreturn] at hline
      rcases List.mem_cons.mp hline with rfl | hline
      · exact hreverse
      · exact ih (by simp) hline (by simp)
  | other c text hbreak ih =>
      rw [go_other hbreak] at hline
      have hcons : ∀ d ∈ c :: current, isLineBreak d = false :=
        List.forall_mem_cons.mpr ⟨hbreak, hcurrent⟩
      exact ih hcons hline fun d hd => hcons d (List.mem_reverse.mp hd)

/-- There are at least as many lines as line feeds, and just as many if every line
break is a line feed, alone or after a carriage return. -/
theorem length_go (current text : Text) (hends : text.EndsLine)
    (hline : text = [] → current = []) :
    text.count newline ≤ (go current text).length ∧
      ((go current text).length = text.count newline ↔ text.FeedsOnly) := by
  induction text using breaks_induction generalizing current with
  | nil =>
      rw [hline rfl]
      exact ⟨Nat.le_refl _, iff_of_true rfl trivial⟩
  | returnFeed c text hc ih =>
      obtain ⟨hle, hiff⟩ := ih [] (hends.of_append [c, newline]) fun _ => rfl
      have hne : c ≠ newline := by
        rintro rfl
        exact absurd hc (by decide)
      rw [go_returnFeed hc, List.length_cons, List.count_cons_of_ne hne, List.count_cons_self]
      refine ⟨by omega, ?_⟩
      rw [Nat.add_right_cancel_iff, hiff]
      simp [FeedsOnly, hc]
  | lineBreak c text hbreak hreturn ih =>
      obtain ⟨hle, hiff⟩ := ih [] (hends.of_append [c]) fun _ => rfl
      rw [go_lineBreak hbreak hreturn, List.length_cons]
      by_cases hc : c = newline
      · subst hc
        rw [List.count_cons_self]
        refine ⟨by omega, ?_⟩
        rw [Nat.add_right_cancel_iff, hiff]
        simp [FeedsOnly]
      · rw [List.count_cons_of_ne hc]
        refine ⟨by omega, iff_of_false (by omega) ?_⟩
        rintro ⟨hfeed, _⟩
        rcases hfeed hbreak with h | h
        · exact hc h
        · exact hreturn h
  | other c text hbreak ih =>
      have hc : c ≠ newline := by
        rintro rfl
        exact absurd hbreak (by decide)
      have hne : text ≠ [] := by
        rintro rfl
        exact hc (eq_newline_of_endsLine hends)
      obtain ⟨hle, hiff⟩ := ih (c :: current) (hends.of_append [c]) fun h => absurd h hne
      rw [go_other hbreak, List.count_cons_of_ne hc]
      refine ⟨hle, ?_⟩
      rw [hiff]
      simp [FeedsOnly, hbreak]

end splitLines

/-- A text that ends with a line feed is split apart from what follows it. -/
theorem splitLines_append {before : Text} (hends : before.EndsLine) (rest : Text) :
    splitLines (before ++ rest) = splitLines before ++ splitLines rest :=
  splitLines.go_append [] before rest hends fun _ => rfl

theorem isLineBreak_of_mem_splitLines {line : Text} (h : line ∈ splitLines text) :
    ∀ c ∈ line, isLineBreak c = false :=
  splitLines.isLineBreak_of_mem_go (by simp) h

/-- A text that ends with a line feed has at least as many lines as line feeds. -/
theorem count_newline_le_length_splitLines (hends : text.EndsLine) :
    text.count newline ≤ (splitLines text).length :=
  (splitLines.length_go [] text hends fun _ => rfl).1

/-- It has no more lines than that exactly if every line break is a line feed, alone
or after a carriage return. -/
theorem length_splitLines_eq_iff (hends : text.EndsLine) :
    (splitLines text).length = text.count newline ↔ text.FeedsOnly :=
  (splitLines.length_go [] text hends fun _ => rfl).2

theorem afterLine_eq_nil_or (text : Text) (pos : Nat) :
    text.afterLine pos = [] ∨ ∃ rest, text.afterLine pos = newline :: rest := by
  have hhead := List.head?_dropWhile_not (fun c => decide (c ≠ newline)) (text.drop pos)
  unfold afterLine
  cases h : (text.drop pos).dropWhile (· ≠ newline) with
  | nil => exact .inl rfl
  | cons c rest =>
      rw [h] at hhead
      obtain rfl : c = newline := by simpa using hhead
      exact .inr ⟨rest, rfl⟩

/-- What comes after a first code point that fails the test does not count. -/
theorem takeWhile_append_of_takeWhile_eq_nil {p : CodePoint → Bool} {rest : Text}
    (h : rest.takeWhile p = []) (front : Text) :
    (front ++ rest).takeWhile p = front.takeWhile p := by
  rw [List.takeWhile_append, h, List.append_nil]
  split
  · next hlength =>
      exact ((List.takeWhile_prefix _).eq_of_length hlength).symm
  · rfl

/-- What remains of the line of a position when it is cut at its first line
break. -/
theorem takeWhile_lineAt_append_afterLine (text : Text) (pos : Nat) :
    (text.lineAt pos ++ text.afterLine pos).takeWhile (!isLineBreak ·) =
      (text.lineAt pos).takeWhile (!isLineBreak ·) := by
  refine takeWhile_append_of_takeWhile_eq_nil ?_ (text.lineAt pos)
  rcases afterLine_eq_nil_or text pos with h | ⟨rest, h⟩
  · rw [h]
    rfl
  · rw [h, List.takeWhile_cons_of_neg (by decide)]

/-- The number of the line of a position, counted from zero. -/
theorem line_sub_one (text : Text) (pos : Nat) :
    (text.lineColumn pos).line - 1 = (text.beforeLine pos).count newline := by
  rw [lineColumn_eq]
  rfl

theorem splitLines_eq_append (text : Text) (pos : Nat) :
    splitLines text =
      splitLines (text.beforeLine pos) ++ splitLines (text.lineAt pos ++ text.afterLine pos) := by
  rw [← splitLines_append (endsLine_beforeLine text pos),
    beforeLine_append_lineAt_append_afterLine]

/-- With line feeds only before it, the line that the coordinates name begins where
the line of the position does, and goes up to the first line break in it.  After a
line feed at the very end there is no such line. -/
theorem getElem?_splitLines_of_feedsOnly (h : (text.beforeLine pos).FeedsOnly) :
    (splitLines text)[(text.lineColumn pos).line - 1]? =
      if text.lineAt pos ++ text.afterLine pos = [] then none
      else some ((text.lineAt pos).takeWhile (!isLineBreak ·)) := by
  have hlength := (length_splitLines_eq_iff (endsLine_beforeLine text pos)).mpr h
  rw [line_sub_one, splitLines_eq_append text pos, ← hlength,
    List.getElem?_append_right (Nat.le_refl _), Nat.sub_self, ← List.head?_eq_getElem?]
  split
  · next hnil =>
      rw [hnil]
      rfl
  · next hne =>
      have hfirst := splitLines.head?_go [] (text.lineAt pos ++ text.afterLine pos) (.inr hne)
      rw [List.reverse_nil, List.nil_append, takeWhile_lineAt_append_afterLine] at hfirst
      exact hfirst

/-- With another line break before it, the line that the coordinates name comes
before the line of the position. -/
theorem getElem?_splitLines_of_not_feedsOnly (h : ¬ (text.beforeLine pos).FeedsOnly) :
    (splitLines text)[(text.lineColumn pos).line - 1]? =
      (splitLines (text.beforeLine pos))[(text.lineColumn pos).line - 1]? := by
  have hends := endsLine_beforeLine text pos
  have hlt : (text.lineColumn pos).line - 1 < (splitLines (text.beforeLine pos)).length := by
    have hle := count_newline_le_length_splitLines hends
    have hne := mt (length_splitLines_eq_iff hends).mp h
    rw [line_sub_one]
    omega
  rw [splitLines_eq_append text pos, List.getElem?_append_left hlt]

theorem feedsOnly_of_forall (h : ∀ c ∈ text, isLineBreak c → c = newline) :
    text.FeedsOnly := by
  induction text with
  | nil => exact trivial
  | cons c text ih =>
      rw [List.forall_mem_cons] at h
      exact ⟨fun hbreak => .inl (h.1 hbreak), ih h.2⟩

/-- If all line breaks of the text are line feeds, the line that the coordinates of a
position name is the line of the position. -/
theorem getElem?_splitLines_of_forall (h : ∀ c ∈ text, isLineBreak c → c = newline)
    (hne : text.lineAt pos ++ text.afterLine pos ≠ []) :
    (splitLines text)[(text.lineColumn pos).line - 1]? = some (text.lineAt pos) := by
  rw [← beforeLine_append_lineAt_append_afterLine text pos] at h
  rw [List.forall_mem_append, List.forall_mem_append] at h
  obtain ⟨hbefore, hline, _⟩ := h
  have hnone : ∀ c ∈ text.lineAt pos, (!isLineBreak c) = true := by
    intro c hc
    rw [Bool.not_eq_true']
    by_contra hbreak
    obtain rfl := hline c hc ((Bool.not_eq_false _).mp hbreak)
    exact newline_notMem_lineAt text pos hc
  rw [getElem?_splitLines_of_feedsOnly (feedsOnly_of_forall hbefore), if_neg hne,
    List.takeWhile_eq_self_iff.mpr hnone]

end ParserAlgebra.Text
