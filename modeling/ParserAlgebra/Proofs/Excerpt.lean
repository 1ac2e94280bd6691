import ParserAlgebra.Proofs.Lines
import ParserAlgebra.Proofs.Location
/-!
# What a note shows

A note on a position may end with an excerpt of a line and a caret below it.  The
two are read back from the end of the note, where no message and no heading can be
taken for them.

* `Diagnosis.shows_appendNote_iff`: what is shown is a window on the line that the
  coordinates of the position name, and how far in the caret stands depends on the
  column alone.
* `Diagnosis.window_iff`: when the caret is under the code point of its column.
* `Diagnosis.pointsAt_appendNote_iff`: the caret is under the code point at the
  position up to the twentieth column.  From there on the window begins one code
  point too late.
* `Diagnosis.shown_infix_lineAt_iff`: the window is one on the line of the position
  if the lines before it end with line feeds only.  The coordinates count line
  feeds, and other line breaks make them name a line further up.
-/

namespace ParserAlgebra

/-- Moved by one, a list fits over its beginning only if its elements are all the
same. -/
theorem take_prefix_cons_iff {α : Type} {a : α} {l : List α} {n : Nat} :
    l.take n <+: a :: l ↔ ∀ b ∈ l.take n, b = a := by
  induction l generalizing a n with
  | nil => simp
  | cons b l ih =>
      cases n with
      | zero => simp
      | succ n =>
          rw [List.take_succ_cons, List.cons_prefix_cons, ih, List.forall_mem_cons]
          refine and_congr_right ?_
          rintro rfl
          rfl

namespace Text

/-- The last line of a text can be told from what comes before it. -/
theorem append_newline_inj {front front' last last' : Text} (h : newline ∉ last)
    (h' : newline ∉ last') :
    front ++ newline :: last = front' ++ newline :: last' ↔
      front = front' ∧ last = last' := by
  constructor
  · intro heq
    rcases List.append_eq_append_iff.mp heq with
      ⟨between, rfl, hlast⟩ | ⟨between, rfl, hlast⟩
    · cases between with
      | nil => exact ⟨(List.append_nil front).symm, (List.cons.inj hlast).2⟩
      | cons c between =>
          obtain ⟨_, rfl⟩ := List.cons.inj hlast
          exact absurd (List.mem_append_right between List.mem_cons_self) h
    · cases between with
      | nil => exact ⟨List.append_nil front', (List.cons.inj hlast).2.symm⟩
      | cons c between =>
          obtain ⟨_, rfl⟩ := List.cons.inj hlast
          exact absurd (List.mem_append_right between List.mem_cons_self) h'
  · rintro ⟨rfl, rfl⟩
    rfl

end Text

namespace Diagnosis

/-- The part of a line that an excerpt shows. -/
def window (line : Text) (column : Nat) : Text :=
  if column ≤ 20 then line.take 40 else (line.drop (column - 20)).take 40

theorem window_isInfix (line : Text) (column : Nat) : window line column <:+: line := by
  unfold window
  split
  · exact (List.take_prefix 40 line).isInfix
  · have htake := List.take_prefix 40 (line.drop (column - 20))
    exact htake.isInfix.trans (List.drop_suffix (column - 20) line).isInfix

/-- The number of blanks before the caret of an excerpt. -/
def caretIndent (column : Nat) : Nat := if column ≤ 20 then column - 1 else 20

theorem excerpt_eq (line : Text) (column : Nat) :
    excerpt line column =
      window line column ++ Text.newline :: caretLine (caretIndent column) := by
  unfold excerpt window caretIndent
  split
  · rw [List.append_assoc]
    rfl
  · rw [List.append_assoc]
    rfl

theorem eq_of_mem_caretLine {c : CodePoint} {indent : Nat} (h : c ∈ caretLine indent) :
    c = .ofChar ' ' ∨ c = .ofChar '^' := by
  rcases List.mem_append.mp h with h | h
  · exact .inl (List.eq_of_mem_replicate h)
  · exact .inr (List.mem_singleton.mp h)

theorem newline_notMem_caretLine (indent : Nat) : Text.newline ∉ caretLine indent := by
  intro h
  rcases eq_of_mem_caretLine h with hblank | hcaret
  · exact absurd hblank (by decide)
  · exact absurd hcaret (by decide)

theorem caretLine_injective : Function.Injective caretLine := by
  intro m n h
  have hlength := congrArg List.length h
  simp only [caretLine, List.length_append, List.length_replicate] at hlength
  exact Nat.add_right_cancel hlength

/-- The last note of a diagnosis ends with this line and a caret below, this far into
it. -/
def Shows (d : Diagnosis) (line : Text) (indent : Nat) : Prop :=
  Text.newline ∉ line ∧ ∃ heading, d.notes.getLast? =
    some (heading ++ Text.newline :: (line ++ Text.newline :: caretLine indent))

/-- What a note says before its excerpt. -/
def heading (source : Text) (pos : Nat) (message : Option Text) : Text :=
  Text.joinLines
    (message.toList ++ [placeLine (min pos source.length) (source.lineColumn pos)])

theorem note_of_excerpt?_eq_none {source : Text} {pos : Nat}
    (h : excerpt? source (source.lineColumn pos) = none) (message : Option Text) :
    note source pos message = heading source pos message := by
  simp only [note, h, heading, Option.toList_none, List.append_nil]

theorem note_of_excerpt?_eq_some {source excerpt : Text} {pos : Nat}
    (h : excerpt? source (source.lineColumn pos) = some excerpt) (message : Option Text) :
    note source pos message =
      heading source pos message ++ Text.newline :: excerpt := by
  cases message with
  | none => simp [note, h, heading, Text.joinLines]
  | some message => simp [note, h, heading, Text.joinLines]

theorem excerpt?_eq_some_iff {source shown : Text} {place : Position} :
    excerpt? source place = some shown ↔
      ∃ line, source.splitLines[place.line - 1]? = some line ∧
        place.column ≤ line.length ∧ shown = excerpt line place.column := by
  unfold excerpt?
  cases source.splitLines[place.line - 1]? with
  | none => simp
  | some line => simp [eq_comm]

theorem newline_notMem_window {source line : Text} (h : line ∈ source.splitLines)
    (column : Nat) : Text.newline ∉ window line column := by
  intro hmem
  have hline := (window_isInfix line column).subset hmem
  exact absurd (Text.isLineBreak_of_mem_splitLines h _ hline) (by decide)

/-- The words that name a place are no caret line. -/
theorem placeLine_ne_caretLine (pos : Nat) (place : Position) (indent : Nat) :
    placeLine pos place ≠ caretLine indent := by
  intro h
  have hfirst : CodePoint.ofChar 'A' ∈ placeLine pos place := by
    simp only [placeLine, List.append_assoc]
    exact List.mem_append_left _ (by decide)
  rcases eq_of_mem_caretLine (h ▸ hfirst) with hblank | hcaret
  · exact absurd hblank (by decide)
  · exact absurd hcaret (by decide)

/-- A heading does not end like an excerpt. -/
theorem heading_ne_excerpt {source : Text} {pos : Nat} {message : Option Text}
    (front : Text) (indent : Nat) :
    heading source pos message ≠ front ++ Text.newline :: caretLine indent := by
  intro h
  have hplace := newline_notMem_placeLine (min pos source.length) (source.lineColumn pos)
  cases message with
  | none =>
      have hmem : Text.newline ∈ heading source pos none := by
        rw [h]
        exact List.mem_append_right front List.mem_cons_self
      exact hplace hmem
  | some message =>
      obtain ⟨_, hlast⟩ :=
        (Text.append_newline_inj hplace (newline_notMem_caretLine indent)).mp h
      exact placeLine_ne_caretLine _ _ indent hlast

/-- What an appended note shows is read off the line that the coordinates name. -/
theorem shows_appendNote_iff {d : Diagnosis} {pos : Nat} {message : Option Text}
    {shown : Text} {indent : Nat} :
    (d.appendNote pos message).Shows shown indent ↔
      ∃ line, d.source.splitLines[(d.source.lineColumn pos).line - 1]? = some line ∧
        (d.source.lineColumn pos).column ≤ line.length ∧
        shown = window line (d.source.lineColumn pos).column ∧
        indent = caretIndent (d.source.lineColumn pos).column := by
  have hlast : (d.appendNote pos message).notes.getLast? =
      some (note d.source pos message) := List.getLast?_concat
  unfold Shows
  rw [hlast]
  constructor
  · rintro ⟨hshown, front, hnote⟩
    rw [Option.some.injEq] at hnote
    cases hexcerpt : excerpt? d.source (d.source.lineColumn pos) with
    | none =>
        rw [note_of_excerpt?_eq_none hexcerpt, ← List.cons_append, ← List.append_assoc]
          at hnote
        exact absurd hnote (heading_ne_excerpt _ indent)
    | some excerpt =>
        obtain ⟨line, hline, hcolumn, rfl⟩ := excerpt?_eq_some_iff.mp hexcerpt
        have hwindow := newline_notMem_window (List.mem_of_getElem? hline)
          (d.source.lineColumn pos).column
        rw [note_of_excerpt?_eq_some hexcerpt, excerpt_eq, ← List.cons_append,
          ← List.append_assoc, ← List.cons_append, ← List.append_assoc] at hnote
        obtain ⟨hfront, hcaret⟩ := (Text.append_newline_inj
          (newline_notMem_caretLine _) (newline_notMem_caretLine _)).mp hnote
        obtain ⟨_, hline'⟩ := (Text.append_newline_inj hwindow hshown).mp hfront
        exact ⟨line, hline, hcolumn, hline'.symm, (caretLine_injective hcaret).symm⟩
  · rintro ⟨line, hline, hcolumn, rfl, rfl⟩
    have hexcerpt := excerpt?_eq_some_iff.mpr ⟨line, hline, hcolumn, rfl⟩
    refine ⟨newline_notMem_window (List.mem_of_getElem? hline) _,
      heading d.source pos message, ?_⟩
    rw [note_of_excerpt?_eq_some hexcerpt, excerpt_eq]

/-- Below the last note of a diagnosis, a caret is under the code point at a position,
and above it stands the part of the line of the position around it. -/
def PointsAt (d : Diagnosis) (pos : Nat) : Prop :=
  ∃ shown indent, d.Shows shown indent ∧
    indent < shown.length ∧ shown[indent]? = d.source[pos]? ∧
    ∃ skipped n, skipped + indent = (d.source.lineStart pos).length ∧
      shown = ((d.source.lineAt pos).drop skipped).take n

section Window

variable {text : Text} {column : Nat} {c : CodePoint}

theorem window_of_lt (h : column < 20) : window text (column + 1) = text.take 40 :=
  if_pos h

theorem caretIndent_of_lt (h : column < 20) : caretIndent (column + 1) = column :=
  if_pos h

/-- Further on the window begins nineteen code points before the position, while the
caret stands after twenty. -/
theorem window_of_le (h : 20 ≤ column) :
    window text (column + 1) = (text.drop (column - 20 + 1)).take 40 := by
  have hnext : column + 1 - 20 = column - 20 + 1 := by omega
  rw [window, if_neg (by omega), hnext]

theorem caretIndent_of_le (h : 20 ≤ column) : caretIndent (column + 1) = 20 :=
  if_neg (by omega)

theorem getElem?_window_of_lt (h : column < 20) :
    (window text (column + 1))[column]? = text[column]? := by
  rw [window_of_lt h, List.getElem?_take_of_lt (by omega)]

theorem getElem?_window_of_le {k : Nat} (h : 20 ≤ column) (hk : k < 40) :
    (window text (column + 1))[k]? = text[column - 20 + 1 + k]? := by
  rw [window_of_le h, List.getElem?_take_of_lt hk, List.getElem?_drop]

/-- The window with the code point before it. -/
theorem take_drop_eq_cons_window (h : 20 ≤ column) (hlength : column < text.length) :
    (text.drop (column - 20)).take 41 =
      text[column - 20] :: window text (column + 1) := by
  have hfirst : column - 20 < text.length := by omega
  rw [window_of_le h, List.drop_eq_getElem_cons hfirst, List.take_succ_cons]

/-- The window would fit one code point earlier only if all that is shown there is
the same. -/
theorem window_eq_take_drop_iff (h : 20 ≤ column) (hlength : column < text.length) :
    (∃ n, window text (column + 1) = (text.drop (column - 20)).take n) ↔
      ∀ b ∈ window text (column + 1), b = text[column - 20] := by
  have hfirst : column - 20 < text.length := by omega
  rw [window_of_le h, List.drop_eq_getElem_cons hfirst]
  constructor
  · rintro ⟨n, hn⟩
    exact take_prefix_cons_iff.mp (hn ▸ List.take_prefix n _)
  · intro hsame
    exact ⟨_, List.prefix_iff_eq_take.mp (take_prefix_cons_iff.mpr hsame)⟩

/-- So the caret is under its own code point, with the line around it above, only by
chance. -/
theorem window_iff_of_le (h : 20 ≤ column) (hc : text[column]? = some c) :
    ((window text (column + 1))[20]? = some c ∧
      ∃ n, window text (column + 1) = (text.drop (column - 20)).take n) ↔
      column + 1 < text.length ∧ ∀ b ∈ (text.drop (column - 20)).take 41, b = c := by
  obtain ⟨hlength, _⟩ := List.getElem?_eq_some_iff.mp hc
  have hunder : (window text (column + 1))[20]? = text[column + 1]? := by
    rw [getElem?_window_of_le h (by decide)]
    congr 1
    omega
  have hmem : c ∈ window text (column + 1) := by
    have hbefore : (window text (column + 1))[19]? = text[column]? := by
      rw [getElem?_window_of_le h (by decide)]
      congr 1
      omega
    exact List.mem_of_getElem? (hbefore.trans hc)
  rw [window_eq_take_drop_iff h hlength, take_drop_eq_cons_window h hlength,
    List.forall_mem_cons]
  constructor
  · rintro ⟨hget, hsame⟩
    have hfirst := hsame c hmem
    have hlt := (List.getElem?_eq_some_iff.mp (hunder.symm.trans hget)).1
    exact ⟨hlt, hfirst.symm, fun b hb => (hsame b hb).trans hfirst.symm⟩
  · rintro ⟨hlt, hfirst, hsame⟩
    have hget := hunder.trans (List.getElem?_eq_getElem hlt)
    rw [hget, hsame _ (List.mem_of_getElem? hget), hfirst]
    exact ⟨rfl, hsame⟩

/-- Where a caret stands under its own code point, with the line around it above. -/
theorem window_iff (hc : text[column]? = some c) :
    ((window text (column + 1))[caretIndent (column + 1)]? = some c ∧
      ∃ skipped n, skipped + caretIndent (column + 1) = column ∧
        window text (column + 1) = (text.drop skipped).take n) ↔
      column + 1 ≤ 20 ∨ (column + 1 < text.length ∧
        ∀ b ∈ (text.drop (column + 1 - 21)).take 41, b = c) := by
  by_cases h : column < 20
  · rw [caretIndent_of_lt h, getElem?_window_of_lt h]
    exact iff_of_true ⟨hc, 0, 40, Nat.zero_add column, window_of_lt h⟩ (.inl h)
  · have hfar : 20 ≤ column := by omega
    rw [caretIndent_of_le hfar, Nat.add_sub_add_right column 1 20, or_iff_right (by omega),
      ← window_iff_of_le hfar hc]
    refine and_congr_right fun _ => ?_
    constructor
    · rintro ⟨skipped, n, hskipped, hpart⟩
      obtain rfl : skipped = column - 20 := by omega
      exact ⟨n, hpart⟩
    · rintro ⟨n, hpart⟩
      exact ⟨column - 20, n, by omega, hpart⟩

end Window

/-- **The caret.**  In a text whose only line breaks are line feeds, an appended note
points at its position up to the twentieth column, and further on only by chance:
where the line goes on after the position and all that stands around it is the
same. -/
theorem pointsAt_appendNote_iff {d : Diagnosis} {pos : Nat} {c : CodePoint}
    (hbreaks : ∀ b ∈ d.source, Text.isLineBreak b → b = Text.newline)
    (hc : d.source[pos]? = some c) (hne : c ≠ Text.newline) (message : Option Text) :
    (d.appendNote pos message).PointsAt pos ↔
      (d.source.lineColumn pos).column ≤ 20 ∨
        ((d.source.lineColumn pos).column < (d.source.lineAt pos).length ∧
          ∀ b ∈ ((d.source.lineAt pos).drop
            ((d.source.lineColumn pos).column - 21)).take 41, b = c) := by
  have hat := Text.getElem?_lineAt hc hne
  have hpos := (List.getElem?_eq_some_iff.mp hat).1
  have hnonempty : d.source.lineAt pos ++ d.source.afterLine pos ≠ [] :=
    List.append_ne_nil_of_left_ne_nil (List.ne_nil_of_length_pos (by omega)) _
  have hline := Text.getElem?_splitLines_of_forall hbreaks hnonempty
  have hcolumn : (d.source.lineColumn pos).column = (d.source.lineStart pos).length + 1 := by
    rw [Text.lineColumn_eq]
  rw [hcolumn, ← window_iff hat]
  unfold PointsAt
  simp only [shows_appendNote_iff, hline, hcolumn, Option.some.injEq, exists_eq_left']
  constructor
  · rintro ⟨shown, indent, ⟨_, rfl, rfl⟩, _, hunder, hpart⟩
    exact ⟨hunder.trans hc, hpart⟩
  · rintro ⟨hunder, hpart⟩
    exact ⟨_, _, ⟨hpos, rfl, rfl⟩, (List.getElem?_eq_some_iff.mp hunder).1,
      hunder.trans hc.symm, hpart⟩

/-- The letters on one line. -/
def alphabet : Diagnosis where
  source := "abcdefghijklmnopqrstuvwxyz"
  pos := 20
  expected := "thing"
  rest := "uvwxyz"

/-- In the twentieth column of the letters the caret is under its letter. -/
theorem alphabet_pointsAt : (alphabet.appendNote 19 none).PointsAt 19 := by
  have hbreaks : ∀ b ∈ alphabet.source, Text.isLineBreak b → b = Text.newline := by decide
  have hc : alphabet.source[19]? = some (.ofChar 't') := rfl
  have hpoints := pointsAt_appendNote_iff hbreaks hc (by decide) none
  exact hpoints.mpr (.inl (by decide))

/-- One column further the caret is under the next letter. -/
theorem alphabet_not_pointsAt :
    (alphabet.appendNote 20 none).notes = [Text.ofString
      "At position 20 (line 1, column 21)\nbcdefghijklmnopqrstuvwxyz\n                    ^"] ∧
    (∀ b ∈ alphabet.source, Text.isLineBreak b → b = Text.newline) ∧
    alphabet.source[20]? = some (.ofChar 'u') ∧
    ¬ (alphabet.appendNote 20 none).PointsAt 20 := by
  refine ⟨rfl, by decide, rfl, ?_⟩
  rintro ⟨shown, indent, hshows, _, hunder, _⟩
  obtain ⟨line, hline, _, rfl, rfl⟩ := shows_appendNote_iff.mp hshows
  have hsource : alphabet.source.splitLines[(alphabet.source.lineColumn 20).line - 1]? =
      some alphabet.source := by decide
  cases hline.symm.trans hsource
  exact absurd hunder (by decide)

/-- **The excerpt.**  The line that an appended note shows is cut from the line of
its position, if all line breaks before this line are line feeds, alone or after a
carriage return.  Otherwise it is cut from a line further up, which is right only
if the same text stands in both. -/
theorem shown_infix_lineAt_iff {d : Diagnosis} {pos : Nat} {message : Option Text}
    {shown : Text} {indent : Nat} (h : (d.appendNote pos message).Shows shown indent) :
    shown <:+: d.source.lineAt pos ↔
      (d.source.beforeLine pos).FeedsOnly ∨
        ∃ earlier, (d.source.beforeLine pos).splitLines[
            (d.source.lineColumn pos).line - 1]? = some earlier ∧
          window earlier (d.source.lineColumn pos).column <:+: d.source.lineAt pos := by
  obtain ⟨line, hline, _, rfl, _⟩ := shows_appendNote_iff.mp h
  by_cases hfeeds : (d.source.beforeLine pos).FeedsOnly
  · refine iff_of_true ?_ (.inl hfeeds)
    rw [Text.getElem?_splitLines_of_feedsOnly hfeeds] at hline
    split at hline
    · cases hline
    · cases hline
      have hprefix := List.takeWhile_prefix (l := d.source.lineAt pos) (!Text.isLineBreak ·)
      exact (window_isInfix _ _).trans hprefix.isInfix
  · rw [Text.getElem?_splitLines_of_not_feedsOnly hfeeds] at hline
    constructor
    · intro hinfix
      exact .inr ⟨line, hline, hinfix⟩
    · rintro (hfeeds' | ⟨earlier, hearlier, hinfix⟩)
      · exact absurd hfeeds' hfeeds
      · cases hearlier.symm.trans hline
        exact hinfix

/-- Where lines end with a carriage return and a line feed, the second line is
shown. -/
theorem returnFeed_shown_infix_lineAt :
    (make "a\r\nbc" 4 "thing" none).notes =
      [Text.ofString "At position 4 (line 2, column 2)\nbc\n ^"] ∧
    ("bc" : Text) <:+: Text.lineAt "a\r\nbc" 4 := by
  have hshows : (make "a\r\nbc" 4 "thing" none).Shows "bc" 1 :=
    ⟨by decide, "At position 4 (line 2, column 2)", rfl⟩
  exact ⟨rfl, (shown_infix_lineAt_iff hshows).mpr (.inl (by decide))⟩

/-- After a carriage return on its own, the second line of two is shown for a position
on the third of three. -/
theorem return_not_shown_infix_lineAt :
    (make "a\rb\nc" 4 "thing" none).notes =
      [Text.ofString "At position 4 (line 2, column 1)\nb\n^"] ∧
    (make "a\rb\nc" 4 "thing" none).Shows "b" 0 ∧
    ¬ ("b" : Text) <:+: Text.lineAt "a\rb\nc" 4 := by
  refine ⟨rfl, ⟨by decide, "At position 4 (line 2, column 1)", rfl⟩, by decide⟩

end Diagnosis

end ParserAlgebra
