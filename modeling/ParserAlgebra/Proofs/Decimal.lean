import ParserAlgebra.Parser.Choice
import ParserAlgebra.Proofs.Integer
import ParserAlgebra.Proofs.Regex.Longest
import ParserAlgebra.Proofs.Run.Outcome
/-!
# Decimal fractions

The texts of decimal fractions as a language, put together from digits, points and
exponents.  What is read from a text is the longest word of it, though the regular
expression only asks for the first way to match: its ways are told apart by what comes
after the digits, so at most one of them can match at all.

* `Decimal.finds_pattern`: the expression finds the language.
* `Decimal.reads_run`: so the answer to a text is the number of the longest fraction that
  begins it, or the failure if none does.
* `Decimal.length_lt_of_begins`: a fraction has a code point that is no digit, and an
  integer stops before it.
* `Decimal.run_decimalFraction_iff`: hence a choice between a fraction and an integer does
  not lose a fraction part or an exponent.
-/

namespace ParserAlgebra

namespace Decimal

open Text Regex

/-- The text of one character. -/
def mark (c : Char) : Language CodePoint := {[.ofChar c]}

/-- One or more digits. -/
def digits : Language CodePoint := runs fun c => c.isDigit

/-- The letter in either case, a sign or none, and digits. -/
def exponents : Language CodePoint :=
  (mark 'e' + mark 'E') * (mark '-' + mark '+' + 1) * digits

/-- Digits with a point between them, digits with a point or nothing before an exponent,
or a point with digits after it.  Where an exponent is not required, it may follow. -/
def unsignedFractions : Language CodePoint :=
  digits * mark '.' * digits * (exponents + 1) + digits * mark '.' * exponents +
    digits * exponents + mark '.' * digits * (exponents + 1)

/-- The same after a minus sign or none. -/
def fractions : Language CodePoint := (mark '-' + 1) * unsignedFractions

/-- The expression after the sign. -/
def unsigned : Pattern :=
  .alt (.seq (.plus digit) (.seq point (.seq (.plus digit) (.option exponent)))) <|
    .alt (.seq (.plus digit) (.seq point exponent)) <|
    .alt (.seq (.plus digit) exponent) <|
      .seq point (.seq (.plus digit) (.option exponent))

/-- What a decimal fraction is to a text. -/
inductive Reads (input : Text) : Outcome Reply → Prop
  /-- The number of the longest fraction that begins the text. -/
  | number {word rest : Text} (hlongest : IsLongest fractions input word)
      (happend : word ++ rest = input) :
      Reads input (.ok (.success (.float (value word)) rest))
  /-- Without one, the failure is at the beginning. -/
  | none (hnone : ∀ word ∈ fractions, ¬ word <+: input) :
      Reads input (.ok (.failure "float" input))

/-- A failure, or an integer after which more than `rest` is left. -/
inductive FallsShort (rest : Text) : Outcome Reply → Prop
  | failure (label left : Text) : FallsShort rest (.ok (.failure label left))
  | number (n : Int) {left : Text} (hlength : rest.length < left.length) :
      FallsShort rest (.ok (.success (.int n) left))

theorem mark_eq (a : Char) : mark a = singles (· = .ofChar a) := by
  ext word
  constructor
  · rintro rfl
    exact ⟨.ofChar a, rfl, rfl⟩
  · rintro ⟨_, rfl, rfl⟩
    rfl

theorem mark_add_mark (a b : Char) :
    mark a + mark b = singles fun c => c = .ofChar a ∨ c = .ofChar b := by
  ext word
  constructor
  · rintro (rfl | rfl)
    · exact ⟨.ofChar a, .inl rfl, rfl⟩
    · exact ⟨.ofChar b, .inr rfl, rfl⟩
  · rintro ⟨_, rfl | rfl, rfl⟩
    · exact .inl rfl
    · exact .inr rfl

section

variable {c : CodePoint}

theorem range_contains_iff (a : Char) :
    (SetItem.range a.toNat a.toNat).contains c ↔ c = .ofChar a := by
  obtain ⟨value, hvalue⟩ := c
  simp only [SetItem.contains, Bool.and_eq_true, decide_eq_true_eq, CodePoint.ofChar,
    CodePoint.mk.injEq]
  omega

theorem contains_mark_iff (a : Char) :
    CharSet.contains { items := [.range a.toNat a.toNat] } c ↔ c = .ofChar a := by
  simp [CharSet.contains, CharSet.listed, range_contains_iff]

theorem contains_marks_iff (a b : Char) :
    CharSet.contains { items := [.range a.toNat a.toNat, .range b.toNat b.toNat] } c ↔
      c = .ofChar a ∨ c = .ofChar b := by
  simp [CharSet.contains, CharSet.listed, range_contains_iff]

theorem contains_digit_iff : CharSet.contains { items := [.range 48 57] } c ↔ c.isDigit := by
  simp [CharSet.contains, CharSet.listed, SetItem.contains, CodePoint.isDigit,
    CodePoint.between]

end

theorem not_isDigit_of_point (c : CodePoint) (hc : c = .ofChar '.') : ¬ c.isDigit := by
  rw [hc]
  decide

theorem not_isDigit_of_letter (c : CodePoint) (hc : c = .ofChar 'e' ∨ c = .ofChar 'E') :
    ¬ c.isDigit := by
  rcases hc with rfl | rfl
  · decide
  · decide

theorem first_mark_mul (a : Char) (K : Language CodePoint) :
    First (· = .ofChar a) (mark a * K) := by
  rw [mark_eq]
  exact first_singles_mul _ K

theorem first_exponents : First (fun c => c = .ofChar 'e' ∨ c = .ofChar 'E') exponents := by
  rw [exponents, mark_add_mark, mul_assoc]
  exact first_singles_mul _ _

theorem notFirst_digit_exponents : NotFirst (fun c => c.isDigit) exponents :=
  first_exponents.notFirst not_isDigit_of_letter

theorem notFirst_digit_mark_mul (K : Language CodePoint) :
    NotFirst (fun c => c.isDigit) (mark '.' * K) :=
  (first_mark_mul '.' K).notFirst not_isDigit_of_point

section

variable {k : State → Option State} {K : Language CodePoint}

theorem finds_digits (hk : Finds k K) (hfirst : NotFirst (fun c => c.isDigit) K) :
    Finds ((Pattern.plus digit).run k) (digits * K) :=
  finds_plus (fun _ => contains_digit_iff) hk hfirst

theorem finds_point (hk : Finds k K) : Finds (point.run k) (mark '.' * K) := by
  rw [mark_eq]
  exact finds_one (fun _ => contains_mark_iff '.') hk

theorem finds_exponent : Finds (exponent.run some) exponents := by
  have hdigits : Finds ((Pattern.plus digit).run some) (digits * 1) :=
    finds_digits finds_some (notFirst_one _)
  have hsign : Finds (sign.run ((Pattern.plus digit).run some))
      ((mark '-' + mark '+') * (digits * 1)) := by
    rw [mark_add_mark]
    exact finds_one (fun _ => contains_marks_iff '-' '+') hdigits
  have hprefers : Prefers ((mark '-' + mark '+') * (digits * 1)) (digits * 1) := by
    rw [mark_add_mark]
    refine prefers_of_first (first_singles_mul _ _) ((first_runs_mul _ 1).notFirst ?_)
    intro c hc hsign
    rcases hsign with rfl | rfl
    · exact absurd hc (by decide)
    · exact absurd hc (by decide)
  have hfinds := finds_one (fun _ => contains_marks_iff 'e' 'E')
    (finds_option hsign hdigits hprefers)
  rw [← mark_add_mark] at hfinds
  have heq : exponents =
      (mark 'e' + mark 'E') * ((mark '-' + mark '+') * (digits * 1) + digits * 1) := by
    rw [exponents, mul_one, mul_assoc, add_mul _ 1, one_mul]
  rw [heq]
  exact hfinds

/-- A point and digits, and an exponent or none. -/
theorem finds_afterPoint :
    Finds ((Pattern.seq point (.seq (.plus digit) (.option exponent))).run some)
      (mark '.' * (digits * (exponents + 1))) := by
  have hexponent : Finds ((Pattern.option exponent).run some) (exponents + 1) :=
    finds_option finds_exponent finds_some (prefers_of_first first_exponents (notFirst_one _))
  have hfirst : NotFirst (fun c => c.isDigit) (exponents + 1) :=
    notFirst_digit_exponents.add (notFirst_one _)
  exact finds_point (finds_digits hexponent hfirst)

/-- After digits, at most one of a point with digits, a point with an exponent and an
exponent begins a text, so the order of the ways does not matter. -/
theorem finds_unsigned : Finds (unsigned.run some) unsignedFractions := by
  have hletter (K : Language CodePoint) : Prefers (mark '.' * K) exponents := by
    refine prefers_of_first (first_mark_mul '.' K) (first_exponents.notFirst ?_)
    intro c hc hpoint
    rw [hpoint] at hc
    exact absurd hc (by decide)
  have hpoint (K L : Language CodePoint) : Prefers (digits * K) (mark '.' * L) :=
    prefers_of_first (first_runs_mul _ K) (notFirst_digit_mark_mul L)
  have hpart : Prefers (mark '.' * (digits * (exponents + 1))) (mark '.' * exponents) := by
    rw [mark_eq]
    exact .singles_mul (prefers_of_first (first_runs_mul _ _) notFirst_digit_exponents)
  -- the same after digits
  have hpart' : Prefers (digits * (mark '.' * (digits * (exponents + 1))))
      (digits * (mark '.' * exponents)) :=
    hpart.runs_mul (first_mark_mul '.' _) (first_mark_mul '.' _) not_isDigit_of_point
      not_isDigit_of_point
  have hletter' (K : Language CodePoint) :
      Prefers (digits * (mark '.' * K)) (digits * exponents) :=
    (hletter K).runs_mul (first_mark_mul '.' K) first_exponents not_isDigit_of_point
      not_isDigit_of_letter
  simp only [unsignedFractions, mul_assoc, add_assoc]
  have hwhole : Finds ((Pattern.seq (.plus digit) exponent).run some) (digits * exponents) :=
    finds_digits finds_exponent notFirst_digit_exponents
  have hbare : Finds ((Pattern.seq (.plus digit) (.seq point exponent)).run some)
      (digits * (mark '.' * exponents)) :=
    finds_digits (finds_point finds_exponent) (notFirst_digit_mark_mul _)
  have hwhole' := finds_alt hwhole finds_afterPoint (hpoint _ _)
  have hbare' := finds_alt hbare hwhole' (.add_right (hletter' _) (hpoint _ _))
  exact finds_alt (finds_digits finds_afterPoint (notFirst_digit_mark_mul _)) hbare'
    (.add_right hpart' (.add_right (hletter' _) (hpoint _ _)))

end

/-- What ends the digits of a fraction is no digit, and no sign either. -/
def Breaks (c : CodePoint) : Prop := ¬ c.isDigit ∧ c ≠ .ofChar '-'

theorem first_breaks_mark_mul (K : Language CodePoint) : First Breaks (mark '.' * K) := by
  refine (first_mark_mul '.' K).mono ?_
  rintro _ rfl
  exact ⟨by decide, by decide⟩

theorem first_breaks_exponents : First Breaks exponents := by
  refine first_exponents.mono ?_
  rintro _ (rfl | rfl)
  · exact ⟨by decide, by decide⟩
  · exact ⟨by decide, by decide⟩

theorem exists_of_mem_digits_mul {K : Language CodePoint} (hK : First Breaks K) {word : Text}
    (h : word ∈ digits * K) :
    ∃ front c back, word = front ++ c :: back ∧ (∀ d ∈ front, d.isDigit) ∧ Breaks c := by
  obtain ⟨front, ⟨-, hfront⟩, rest, hrest, rfl⟩ := Language.mem_mul.mp h
  obtain ⟨c, back, rfl, hc⟩ := hK rest hrest
  exact ⟨front, c, back, rfl, hfront, hc⟩

/-- A fraction without its sign has digits or none, and then a code point that is no
digit. -/
theorem exists_of_mem_unsignedFractions {word : Text} (h : word ∈ unsignedFractions) :
    ∃ front c back, word = front ++ c :: back ∧ (∀ d ∈ front, d.isDigit) ∧ Breaks c := by
  simp only [unsignedFractions, mul_assoc, Language.mem_add] at h
  rcases h with ((h | h) | h) | h
  · exact exists_of_mem_digits_mul (first_breaks_mark_mul _) h
  · exact exists_of_mem_digits_mul (first_breaks_mark_mul _) h
  · exact exists_of_mem_digits_mul first_breaks_exponents h
  · obtain ⟨c, back, rfl, hc⟩ := first_breaks_mark_mul _ word h
    exact ⟨[], c, back, rfl, List.forall_mem_nil _, hc⟩

theorem notFirst_minus : NotFirst (· = .ofChar '-') unsignedFractions := by
  intro word hword c hc
  obtain ⟨front, d, back, rfl, hfront, -, hd⟩ := exists_of_mem_unsignedFractions hword
  intro hminus
  subst hminus
  cases front with
  | nil => exact hd (Option.some.inj hc)
  | cons a front =>
      obtain rfl := Option.some.inj hc
      exact absurd (hfront _ List.mem_cons_self) (by decide)

theorem finds_pattern : Finds (pattern.run some) fractions := by
  have hminus := finds_one (fun _ => contains_mark_iff '-') finds_unsigned
  rw [← mark_eq] at hminus
  rw [fractions, add_mul, one_mul]
  exact finds_option hminus finds_unsigned (prefers_of_first (first_mark_mul '-' _)
    notFirst_minus)

section

variable {input word rest : Text}

theorem hasDigit_decimal_iff {c : CodePoint} : Radix.decimal.hasDigit c ↔ c.isDigit := by
  constructor
  · intro h
    have hall : ∀ d ∈ Radix.decimal.digits, d.isDigit := by decide
    exact hall c (List.contains_iff_mem.mp h)
  · intro h
    have hall : ∀ n < 10, Radix.decimal.hasDigit (.ofNat (48 + n)) := by decide
    simp only [CodePoint.isDigit, CodePoint.between, Char.reduceToNat, Bool.and_eq_true,
      decide_eq_true_eq] at h
    have hc : c = .ofNat (48 + (c.value - 48)) := by
      rw [Nat.add_sub_of_le h.1, CodePoint.ofNat, dif_pos c.value_lt]
    rw [hc]
    exact hall _ (by omega)

/-- In base ten there is no mark. -/
theorem eq_of_announces {spelling following : Text} {r : Radix}
    (h : Integer.Announces 10 spelling r following) : spelling = [] ∧ r = .decimal := by
  cases h with
  | fixed _ _ hbase =>
      refine ⟨rfl, ?_⟩
      cases r with
      | decimal => rfl
      | binary => cases hbase
      | octal => cases hbase
      | hexadecimal => cases hbase
  | marked _ hbase => cases hbase
  | unmarked _ hbase => cases hbase

/-- A fraction has the sign that an integer has. -/
theorem isSign_of_mem {sign unsigned : Text} (hsign : sign ∈ mark '-' + 1)
    (hunsigned : unsigned ∈ unsignedFractions) (rest : Text) :
    Integer.IsSign sign (sign ++ (unsigned ++ rest)) := by
  rcases hsign with rfl | hsign
  · exact .inl rfl
  · obtain rfl := (Language.mem_one sign).mp hsign
    refine .inr ⟨rfl, ?_⟩
    intro hbegins
    cases unsigned with
    | nil =>
        obtain ⟨front, c, back, heq, -⟩ := exists_of_mem_unsignedFractions hunsigned
        simp at heq
    | cons c unsigned =>
        obtain ⟨hc, -⟩ := List.cons_prefix_cons.mp hbegins
        exact notFirst_minus _ hunsigned c rfl hc.symm

/-- An integer stops where the digits of a fraction end. -/
theorem length_lt_of_begins (l : Integer.Layout 10 input) (hword : word ∈ fractions)
    (happend : word ++ rest = input) : rest.length < l.rest.length := by
  obtain ⟨sign, hsign, unsigned, hunsigned, rfl⟩ := Language.mem_mul.mp hword
  rw [List.append_assoc] at happend
  have hfraction : Integer.splitSign input = (!sign.isEmpty, unsigned ++ rest) :=
    Integer.splitSign_of_append happend (happend ▸ isSign_of_mem hsign hunsigned rest)
  have hinteger := Integer.splitSign_of_append l.append_eq l.isSign
  obtain ⟨hmark, hradix⟩ := eq_of_announces l.announces
  have heq : unsigned ++ rest = l.digits ++ l.rest := by
    have h := congrArg Prod.snd (hfraction.symm.trans hinteger)
    rwa [hmark] at h
  obtain ⟨front, c, back, rfl, hfront, hc, -⟩ := exists_of_mem_unsignedFractions hunsigned
  rw [List.append_assoc] at heq
  -- both are digits, and then something that begins with no digit
  have hdrop : (front ++ (c :: back ++ rest)).dropWhile CodePoint.isDigit =
      c :: back ++ rest := by
    refine (Integer.takeWhile_dropWhile_append hfront ?_).2
    intro d hd
    rwa [← Option.some.inj hd]
  have hdrop' : (l.digits ++ l.rest).dropWhile CodePoint.isDigit = l.rest := by
    refine (Integer.takeWhile_dropWhile_append ?_ ?_).2
    · intro d hd
      rw [← hasDigit_decimal_iff, ← hradix]
      exact l.hasDigit_of_mem d hd
    · intro d hd hdigit
      refine l.not_digit_head d hd (Radix.hasDigit_iff.mp ?_)
      rw [hradix]
      exact hasDigit_decimal_iff.mpr hdigit
  have hrest : l.rest = c :: back ++ rest := by rw [← hdrop', ← heq, hdrop]
  rw [hrest, List.length_append, List.length_cons]
  omega

theorem fallsShort_of_begins (hword : word ∈ fractions) (happend : word ++ rest = input)
    (hshort : ¬ Integer.Overlong 10 input) :
    FallsShort rest (.ofExcept (Integer.parse (Radix.ofBase? 10) input)) := by
  obtain ⟨l⟩ := Integer.Layout.exists_layout (by decide : (10 : Int) ∈ [0, 2, 8, 10, 16]) input
  obtain ⟨outcome, hanswers⟩ := l.exists_answers
  rw [Integer.outcome_of_answers hanswers]
  cases hanswers with
  | number l => exact .number _ (length_lt_of_begins l hword happend)
  | missing => exact .failure _ _
  | none => exact .failure _ _
  | tooLong l hradix hlength => exact absurd ⟨l, hradix, hlength⟩ hshort

theorem Reads.eq {outcome outcome' : Outcome Reply} (h : Reads input outcome)
    (h' : Reads input outcome') : outcome = outcome' := by
  cases h with
  | number hlongest happend =>
      cases h' with
      | number hlongest' happend' =>
          obtain rfl := hlongest.eq hlongest'
          obtain rfl := List.append_cancel_left (happend.trans happend'.symm)
          rfl
      | none hnone => exact absurd hlongest.begins (hnone _ hlongest.mem)
  | none hnone =>
      cases h' with
      | number hlongest => exact absurd hlongest.begins (hnone _ hlongest.mem)
      | none => rfl

theorem outcome_run_decimalFraction (g : Grammar) (s : Settings) (limit : Nat)
    (input : Text) :
    (g.run s limit .decimalFraction input).outcome = .ok
      (match regex.match? input with
        | some m => .success (.float (value m.whole)) m.rest
        | none => .failure "float" input) := by
  rw [Parser.decimalFraction, Grammar.outcome_run_label, Grammar.outcome_run_map,
    Grammar.outcome_run_leaf, Leaf.run]
  cases regex.match? input with
  | some m => rfl
  | none => rfl

theorem reads_run (g : Grammar) (s : Settings) (limit : Nat) (input : Text) :
    Reads input (g.run s limit .decimalFraction input).outcome := by
  rw [outcome_run_decimalFraction]
  have hfound := found_match? (r := regex) finds_pattern input
  rcases hfound with ⟨word, rest, hlongest, happend, hmatch⟩ | ⟨hnone, hmatch⟩
  · rw [hmatch]
    exact .number hlongest happend
  · rw [hmatch]
    exact .none hnone

theorem FallsShort.exists_reply {outcome : Outcome Reply} (h : FallsShort rest outcome) :
    ∃ r, outcome = .ok r := by
  cases h with
  | failure => exact ⟨_, rfl⟩
  | number => exact ⟨_, rfl⟩

/-- **Decimal fractions.**  What is answered to a text is what a decimal fraction is to
it.  Where there is one, an integer falls short of it, unless that is too long to be
read, so a choice between the two answers with the fraction. -/
theorem run_decimalFraction_iff :
    ∃ integer choice, Parser.integerOf 10 = .ok integer ∧
      Parser.choice [Parser.decimalFraction, integer] = .ok choice ∧
      ∀ (g : Grammar) (s : Settings) (limit : Nat) (input : Text),
        (∀ outcome, (g.run s limit .decimalFraction input).outcome = outcome ↔
          Reads input outcome) ∧
        ∀ word rest, IsLongest fractions input word → word ++ rest = input →
          ¬ Integer.Overlong 10 input →
            FallsShort rest (g.run s limit integer input).outcome ∧
            (g.run s limit choice input).outcome =
              .ok (.success (.float (value word)) rest) := by
  refine ⟨_, _, Integer.integerOf_eq (by decide), rfl, fun g s limit input => ⟨?_, ?_⟩⟩
  · intro outcome
    constructor
    · intro heq
      rw [← heq]
      exact reads_run g s limit input
    · intro h
      exact (reads_run g s limit input).eq h
  · intro word rest hlongest happend hshort
    have hfraction := (reads_run g s limit input).eq (.number hlongest happend)
    have hfalls : FallsShort rest
        (g.run s limit (.integer (Radix.ofBase? 10)) input).outcome := by
      rw [Integer.outcome_run_integer]
      exact fallsShort_of_begins hlongest.mem happend hshort
    obtain ⟨r, hinteger⟩ := hfalls.exists_reply
    exact ⟨hfalls, Grammar.outcome_run_orElse_of_success hfraction hinteger⟩

/-- Between a fraction and the letter of an exponent that does not follow. -/
theorem danglingExponent_reads :
    ∃ integer choice, Parser.integerOf 10 = .ok integer ∧
      Parser.choice [Parser.decimalFraction, integer] = .ok choice ∧
      IsLongest fractions "-12.5e+x" "-12.5" ∧
      ¬ Integer.Overlong 10 "-12.5e+x" ∧
      ∀ (g : Grammar) (s : Settings) (limit : Nat),
        (g.run s limit integer "-12.5e+x").outcome =
          .ok (.success (.int (-12)) ".5e+x") ∧
        (g.run s limit choice "-12.5e+x").outcome =
          .ok (.success (.float (value "-12.5")) "e+x") := by
  obtain ⟨integer, choice, hinteger, hchoice, hreads⟩ := run_decimalFraction_iff
  have hlongest : IsLongest fractions "-12.5e+x" "-12.5" := by
    have hmatch : regex.match? "-12.5e+x" =
        some { whole := "-12.5", groups := [], rest := "e+x" } := by decide +kernel
    exact isLongest_of_match? finds_pattern hmatch
  have hshort : ¬ Integer.Overlong 10 "-12.5e+x" := by
    intro ⟨l, _, hlength⟩
    have htotal := congrArg List.length l.append_eq
    simp only [List.length_append] at htotal
    have hinput : (("-12.5e+x" : Text)).length = 8 := rfl
    omega
  refine ⟨integer, choice, hinteger, hchoice, hlongest, hshort, fun g s limit => ?_⟩
  obtain ⟨-, hrun⟩ := (hreads g s limit _).2 _ _ hlongest rfl hshort
  cases hinteger
  exact ⟨rfl, hrun⟩

end

end Decimal

end ParserAlgebra
