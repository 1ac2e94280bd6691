import Mathlib.Data.List.TakeWhile
import ParserAlgebra.Proofs.Remainder.Run
import ParserAlgebra.Text.Alphabet
/-!
# Where a failure is

A run can be asked to answer a failure with its diagnosis in the input
(`Grammar.demand`).  The diagnosis finds its position from lengths alone: the
input must end with the rest of the failure, and where it does not, the position
is silently the beginning.  By the suffix invariant the input always ends with
that rest, so the position is the true one.

The place is given twice, by the coordinates of the diagnosis and in words by
its first note, and the two are computed apart from each other.  To compare them
the words have to be read back, which takes that a numeral ends where it seems
to end.

* `Text.ofNat_append_inj`: a numeral and what follows it can be told apart, if a
  code point that is no digit comes first.
* `Diagnosis.placeLine_inj`: no two places are named by the same words.
* `Diagnosis.Locates`: the diagnosis is that of a failure in a source, at its
  place, and its first note names this place and no other.
* `Diagnosis.make_locates`: so it is if the source ends with the rest.
* `Grammar.demand_agrees_run`: the diagnosis of a demanded run locates the
  failure of the run, and in all else the two have the same outcome.
-/

namespace ParserAlgebra

namespace CodePoint

theorem ofChar_injective : Function.Injective ofChar := by
  intro c d h
  exact Char.toNat_inj.mp (congrArg value h)

theorem isDigit_ofChar {c : Char} (h : c.isDigit) : (ofChar c).isDigit := by
  simp only [Char.isDigit, ge_iff_le, Bool.and_eq_true, decide_eq_true_eq,
    UInt32.le_iff_toNat_le] at h
  exact Bool.and_eq_true_iff.mpr ⟨decide_eq_true h.1, decide_eq_true h.2⟩

end CodePoint

namespace Text

theorem ofString_injective : Function.Injective ofString := by
  intro s t h
  exact String.toList_injective
    (List.map_injective_iff.mpr CodePoint.ofChar_injective h)

theorem ofNat_injective : Function.Injective ofNat := by
  intro m n h
  have hdigits : Nat.toDigits 10 m = Nat.toDigits 10 n := by
    rw [← Nat.toList_repr, ← Nat.toList_repr]
    exact congrArg String.toList (ofString_injective h)
  calc
    m = Nat.ofDigitChars 10 (Nat.toDigits 10 m) 0 :=
      Nat.ofDigitChars_ten_toDigits.symm
    _ = Nat.ofDigitChars 10 (Nat.toDigits 10 n) 0 := by rw [hdigits]
    _ = n := Nat.ofDigitChars_ten_toDigits

theorem isDigit_of_mem_ofNat {n : Nat} {c : CodePoint} (h : c ∈ ofNat n) :
    c.isDigit := by
  obtain ⟨d, hd, rfl⟩ := List.mem_map.mp h
  have hdigits : (toString n).toList = Nat.toDigits 10 n := Nat.toList_repr
  rw [hdigits] at hd
  have hdigit := Nat.isDigit_of_mem_toDigits (by decide) (by decide) hd
  exact CodePoint.isDigit_ofChar hdigit

/-- A numeral goes as far as there are digits. -/
theorem takeWhile_ofNat_append {n : Nat} {c : CodePoint} (hc : c.isDigit = false)
    (rest : Text) : (ofNat n ++ c :: rest).takeWhile CodePoint.isDigit = ofNat n := by
  rw [List.takeWhile_append_of_pos fun d hd => isDigit_of_mem_ofNat hd]
  simp [hc]

/-- A numeral and what follows it can be told apart, if a code point that is no
digit comes first. -/
theorem ofNat_append_inj {m n : Nat} {mark s t : Text}
    (hmark : ∃ c rest, mark = c :: rest ∧ c.isDigit = false) :
    ofNat m ++ (mark ++ s) = ofNat n ++ (mark ++ t) ↔ m = n ∧ s = t := by
  obtain ⟨c, rest, rfl, hc⟩ := hmark
  constructor
  · intro h
    have hnumeral := congrArg (List.takeWhile CodePoint.isDigit) h
    simp only [List.cons_append, takeWhile_ofNat_append hc] at hnumeral
    obtain rfl := ofNat_injective hnumeral
    exact ⟨rfl, List.append_cancel_left (List.append_cancel_left h)⟩
  · rintro ⟨rfl, rfl⟩
    rfl

/-- The text before the first line feed. -/
def firstLine (text : Text) : Text := text.takeWhile (· ≠ newline)

theorem firstLine_joinLines {line : Text} (h : newline ∉ line) (lines : List Text) :
    (joinLines (line :: lines)).firstLine = line := by
  have hline : ∀ c ∈ line, decide (c ≠ newline) = true := by
    intro c hc
    exact decide_eq_true fun heq => h (heq ▸ hc)
  cases lines with
  | nil => exact List.takeWhile_eq_self_iff.mpr hline
  | cons next lines =>
      simp only [firstLine, joinLines]
      rw [List.takeWhile_append_of_pos hline]
      simp

end Text

namespace Diagnosis

/-- No two places are named by the same words. -/
theorem placeLine_inj {m n : Nat} {a b : Position} :
    placeLine m a = placeLine n b ↔ m = n ∧ a = b := by
  constructor
  · intro h
    simp only [placeLine, List.append_assoc, List.append_cancel_left_eq] at h
    obtain ⟨hpos, h⟩ := (Text.ofNat_append_inj ⟨_, _, rfl, by decide⟩).mp h
    obtain ⟨hline, h⟩ := (Text.ofNat_append_inj ⟨_, _, rfl, by decide⟩).mp h
    have hcolumn := Text.ofNat_injective (List.append_cancel_right h)
    cases a
    cases b
    exact ⟨hpos, by simp_all⟩
  · rintro ⟨rfl, rfl⟩
    rfl

theorem newline_notMem_placeLine (pos : Nat) (place : Position) :
    Text.newline ∉ placeLine pos place := by
  have hnumeral : ∀ n, Text.newline ∉ Text.ofNat n := by
    intro n h
    exact absurd (Text.isDigit_of_mem_ofNat h) (by decide)
  simp only [placeLine, List.mem_append, hnumeral, or_false, not_or]
  decide

/-- The first line of the note says that a failure is at this position, with
these coordinates. -/
def Names (note : Text) (pos : Nat) (place : Position) : Prop :=
  note.firstLine = placeLine pos place

/-- A note without a message names the place it was made for and no other.  A
position beyond the end of the source is its end. -/
theorem names_note_iff {source : Text} {pos n : Nat} {place : Position} :
    Names (note source pos none) n place ↔
      n = min pos source.length ∧ place = source.lineColumn pos := by
  have hline : (note source pos none).firstLine =
      placeLine (min pos source.length) (source.lineColumn pos) :=
    Text.firstLine_joinLines (newline_notMem_placeLine _ _) _
  unfold Names
  rw [hline, placeLine_inj]
  exact and_congr eq_comm eq_comm

/-- The diagnosis is that of a failure in a source, at its place. -/
structure Locates (d : Diagnosis) (source expected rest : Text) : Prop where
  source_eq : d.source = source
  expected_eq : d.expected = expected
  rest_eq : d.rest = rest
  pos_le : d.pos ≤ source.length
  /-- What comes before the position is followed by the rest. -/
  take_append : source.take d.pos ++ rest = source
  /-- The first note names the position and its coordinates and nothing else. -/
  names_iff : ∃ first, d.notes.head? = some first ∧
    ∀ n place, Names first n place ↔ n = d.pos ∧ place = d.position

/-- **The place of a diagnosis.**  If the source ends with the rest, the position
found from the lengths is the place of the failure, and the note names it. -/
theorem make_locates {source rest : Text} (h : rest <:+ source) (expected : Text) :
    (make source (source.length - rest.length) expected (some rest)).Locates
      source expected rest where
  source_eq := rfl
  expected_eq := rfl
  rest_eq := rfl
  pos_le := Nat.sub_le _ _
  take_append := by
    obtain ⟨before, rfl⟩ := h
    simp [make, appendNote]
  names_iff := by
    refine ⟨_, rfl, fun n place => ?_⟩
    rw [names_note_iff, Nat.min_eq_left (Nat.sub_le _ _)]
    rfl

end Diagnosis

/-- The test for the rest at the end of the source succeeds, so the position does
not fall back to the beginning. -/
theorem Reply.diagnosis_failure {source rest : Text} (h : rest <:+ source)
    (expected : Text) : (failure expected rest).diagnosis (some source) =
      .ok (.make source (source.length - rest.length) expected (some rest)) := by
  simp [diagnosis, h]

namespace Grammar

variable {g : Grammar} {s : Settings} {limit : Nat} {p : Parser} {input : Text}

theorem demand_of_run_success {r : Reply} (hsucc : r.isSuccess)
    (h : (g.run s limit p input).outcome = .ok r) :
    (g.demand s limit p input).outcome = .ok (.ok r) := by
  simp [demand, Except.bind, h, hsucc]

theorem demand_of_run_failure {expected rest : Text} (hrest : rest <:+ input)
    (h : (g.run s limit p input).outcome = .ok (.failure expected rest)) :
    (g.demand s limit p input).outcome = .ok (.error
      (.make input (input.length - rest.length) expected (some rest))) := by
  simp only [demand, Run.outcome_bind, h, Except.bind, Reply.isSuccess,
    Bool.false_eq_true, if_false, Reply.diagnosis_failure hrest]
  rfl

theorem demand_of_run_stop {stop : Stop}
    (h : (g.run s limit p input).outcome = .error stop) :
    (g.demand s limit p input).outcome = .error stop := by
  simp [demand, Except.bind, h]

/-- **Demanded runs.**  A demanded run answers with the replies of the run, if
these are successes, and with a diagnosis exactly if the run fails.  The
diagnosis locates the failure in the input.  The two stop for the same
reasons. -/
theorem demand_agrees_run (hleaf : g.EachLeaf Leaf.KeepsSuffix p)
    (s : Settings) (limit : Nat) (input : Text) :
    (∀ r, (g.demand s limit p input).outcome = .ok (.ok r) ↔
      r.isSuccess ∧ (g.run s limit p input).outcome = .ok r) ∧
    (∀ expected rest,
      (g.run s limit p input).outcome = .ok (.failure expected rest) →
        ∃ d, (g.demand s limit p input).outcome = .ok (.error d) ∧
          d.Locates input expected rest) ∧
    (∀ d, (g.demand s limit p input).outcome = .ok (.error d) →
      ∃ expected rest,
        (g.run s limit p input).outcome = .ok (.failure expected rest)) ∧
    ∀ stop, (g.demand s limit p input).outcome = .error stop ↔
      (g.run s limit p input).outcome = .error stop := by
  cases hrun : (g.run s limit p input).outcome with
  | error stop => simp [demand_of_run_stop hrun]
  | ok r =>
      by_cases hsucc : r.isSuccess
      · rw [demand_of_run_success hsucc hrun]
        refine ⟨fun r' => ?_, ?_, by simp, by simp⟩
        · simp only [Except.ok.injEq]
          constructor
          · rintro rfl
            exact ⟨hsucc, rfl⟩
          · exact fun h => h.2
        · rintro expected rest ⟨⟩
          cases hsucc
      · cases r with
        | success v rest => exact absurd rfl hsucc
        | discarded rest => exact absurd rfl hsucc
        | failure expected rest =>
            have hrest : rest <:+ input := rest_suffix_of_run hleaf hrun
            rw [demand_of_run_failure hrest hrun]
            refine ⟨fun r' => ?_, ?_, fun d _ => ⟨expected, rest, rfl⟩, by simp⟩
            · constructor
              · rintro ⟨⟩
              · rintro ⟨hsucc', ⟨⟩⟩
                cases hsucc'
            · rintro expected' rest' ⟨⟩
              exact ⟨_, rfl, Diagnosis.make_locates hrest expected⟩

/-- Integers, each on a line of its own. -/
def integerLines : Grammar where
  cells := [some (((((Parser.integer none).keepFirst (.char '\n')).keepSecond
    (.cell 0))).orElse .endOfInput)]

/-- Where an integer is followed by more on its line, the demanded run points at
that, on the second line and in the third column. -/
theorem integerLines_demand_agrees :
    (integerLines.run {} 3 (.cell 0) "1\n23+").outcome =
      .ok (.failure "char(\n)" "+") ∧
    ∃ d, (integerLines.demand {} 3 (.cell 0) "1\n23+").outcome = .ok (.error d) ∧
      d.Locates "1\n23+" "char(\n)" "+" ∧ d.pos = 4 ∧ d.position = ⟨2, 3⟩ ∧
      d.notes = [Text.ofString "At position 4 (line 2, column 3)\n23+\n  ^"] := by
  have hleaf : integerLines.EachLeaf Leaf.KeepsSuffix (.cell 0) := by
    refine ⟨trivial, fun {id definition} _ hcell => ?_⟩
    match id, hcell with
    | 0, hcell =>
        cases hcell
        exact ⟨⟨⟨trivial, trivial⟩, fun _ => trivial⟩, trivial⟩
    | _ + 1, hcell => simp [integerLines] at hcell
  have hrun : (integerLines.run {} 3 (.cell 0) "1\n23+").outcome =
      .ok (.failure "char(\n)" "+") := rfl
  obtain ⟨d, hd, hlocates⟩ := (demand_agrees_run hleaf {} 3 _).2.1 _ _ hrun
  have hmake : (integerLines.demand {} 3 (.cell 0) "1\n23+").outcome =
      .ok (.error (.make "1\n23+" 4 "char(\n)" (some "+"))) := rfl
  cases hd.symm.trans hmake
  exact ⟨hrun, _, hmake, hlocates, rfl, rfl, rfl⟩

end Grammar

end ParserAlgebra
