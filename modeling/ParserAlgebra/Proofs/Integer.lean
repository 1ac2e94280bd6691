import Mathlib.Data.List.Forall2
import Mathlib.Data.List.Induction
import Mathlib.Data.List.TakeWhile
import Mathlib.Data.Nat.Digits.Defs
import ParserAlgebra.Grammar
import ParserAlgebra.Parser.Lexeme
/-!
# Integers

What an integer is, said apart from how it is read: a digit has its place in the
order of the digits, a numeral denotes a number by position, and a text that is
read in a base divides into a sign, a mark, digits and a rest (`Integer.Layout`).

* `Numeral.denotes_iff`: a digit sequence denotes the value that is computed for
  it.
* `Integer.Layout.exists_layout`: every text divides in every base.
* `Integer.Layout.parse_eq`: what is read from a text follows from any division
  of it.
* `Integer.answers_run_iff`: so the reading of integers is what their grammar says,
  failures included.  The one exception is a decimal numeral that is too long.
* `Integer.isResult_run_iff`: that exception cuts the run short, and nothing else
  does.
-/

namespace ParserAlgebra

namespace CodePoint

/-- A code point is its small letter or the capital of it. -/
theorem eq_or_eq_toUpper {c d : CodePoint} (h : c.toLower = d) : c = d ∨ c = d.toUpper := by
  by_cases hupper : c.isUpper
  · right
    have hrange := hupper
    simp only [isUpper, between, Char.reduceToNat, Bool.and_eq_true, decide_eq_true_eq]
      at hrange
    have hd : d.value = c.value + 32 := by
      rw [← h, toLower, if_pos hupper, ofNat, dif_pos (by omega)]
    have hlower : d.isLower := by
      simp only [isLower, between, Char.reduceToNat, Bool.and_eq_true, decide_eq_true_eq]
      omega
    rw [toUpper, if_pos hlower, hd, Nat.add_sub_cancel, ofNat, dif_pos c.value_lt]
  · left
    rwa [toLower, if_neg hupper] at h

end CodePoint

namespace Radix

/-- The digits of all radixes in the order of their values. -/
def inOrder : Text := "0123456789abcdef"

/-- A digit of the radix, in either case, and its value. -/
def Digit (r : Radix) (c : CodePoint) (n : Nat) : Prop :=
  n < r.base ∧ inOrder[n]? = some c.toLower

/-- The marks in front of digits, their radixes, and what is missing where no digit
follows. -/
inductive Mark : Text → Radix → Text → Prop
  | binary : Mark "0b" .binary "binary digit after 0b"
  | octal : Mark "0o" .octal "octal digit after 0o"
  | hexadecimal : Mark "0x" .hexadecimal "hexadecimal digit after 0x"

theorem digit_iff {r : Radix} {c : CodePoint} {n : Nat} :
    r.Digit c n ↔ r.hasDigit c ∧ c.digitValue = n := by
  constructor
  · rintro ⟨hlt, hget⟩
    have hall : ∀ k < r.base, ∀ d ∈ inOrder[k]?,
        (r.hasDigit d ∧ d.digitValue = k) ∧
          r.hasDigit d.toUpper ∧ d.toUpper.digitValue = k := by
      cases r <;> decide
    obtain ⟨hlower, hupper⟩ := hall n hlt c.toLower hget
    rcases CodePoint.eq_or_eq_toUpper (c := c) rfl with heq | heq
    · rwa [← heq] at hlower
    · rwa [← heq] at hupper
  · rintro ⟨hdigit, rfl⟩
    have hall : ∀ d ∈ r.digits, d.digitValue < r.base ∧
        inOrder[d.digitValue]? = some d.toLower := by
      cases r <;> decide
    exact hall c (List.contains_iff_mem.mp hdigit)

theorem hasDigit_iff {r : Radix} {c : CodePoint} : r.hasDigit c ↔ ∃ n, r.Digit c n := by
  simp [digit_iff]

theorem missingDigit_of_mark {mark label : Text} {r : Radix} (h : Mark mark r label) :
    Integer.missingDigit mark r = label := by
  cases h <;> rfl

theorem Mark.ne_nil {mark label : Text} {r : Radix} (h : Mark mark r label) :
    mark ≠ [] := by
  cases h <;> decide

theorem mem_marks_iff {mark : Text} {r : Radix} :
    (mark, r) ∈ marks ↔ ∃ label, Mark mark r label := by
  constructor
  · intro h
    simp only [marks, List.mem_cons, List.not_mem_nil, or_false, Prod.mk.injEq] at h
    rcases h with ⟨rfl, rfl⟩ | ⟨rfl, rfl⟩ | ⟨rfl, rfl⟩
    · exact ⟨_, .binary⟩
    · exact ⟨_, .octal⟩
    · exact ⟨_, .hexadecimal⟩
  · rintro ⟨label, h⟩
    cases h <;> decide

theorem marked?_append {mark label : Text} {r : Radix} (h : Mark mark r label)
    (text : Text) : marked? (mark ++ text) = some (mark, r, text) := by
  cases h <;> rfl

theorem mark_of_marked? {text mark rest : Text} {r : Radix}
    (h : marked? text = some (mark, r, rest)) :
    (∃ label, Mark mark r label) ∧ text = mark ++ rest := by
  obtain ⟨entry, hentry, hstrip⟩ := List.exists_of_findSome?_eq_some h
  obtain ⟨rest', hrest, heq⟩ := Option.map_eq_some_iff.mp hstrip
  cases heq
  exact ⟨mem_marks_iff.mp hentry, Text.strip?_eq_some_iff.mp hrest⟩

theorem marked?_eq_none_iff {text : Text} :
    marked? text = none ↔ ∀ mark r label, Mark mark r label → ¬ mark <+: text := by
  constructor
  · rintro hnone mark r label hmark ⟨rest, rfl⟩
    rw [marked?_append hmark] at hnone
    cases hnone
  · intro h
    cases hmarked : marked? text with
    | none => rfl
    | some found =>
        obtain ⟨mark, r, rest⟩ := found
        obtain ⟨⟨label, hmark⟩, htext⟩ := mark_of_marked? hmarked
        exact absurd ⟨rest, htext.symm⟩ (h mark r label hmark)

end Radix

namespace Numeral

/-- The number that a digit sequence denotes by position. -/
def Denotes (r : Radix) (digits : Text) (n : Nat) : Prop :=
  ∃ ns, List.Forall₂ r.Digit digits ns ∧ n = Nat.ofDigits r.base ns.reverse

theorem value_append (r : Radix) (digits : Text) (c : CodePoint) :
    value r (digits ++ [c]) = r.base * value r digits + c.digitValue :=
  List.foldl_concat ..

theorem value_eq_ofDigits (r : Radix) (digits : Text) :
    value r digits = Nat.ofDigits r.base (digits.map CodePoint.digitValue).reverse := by
  induction digits using List.reverseRecOn with
  | nil => rfl
  | append_singleton digits c ih =>
      rw [value_append, ih, List.map_append, List.map_singleton, List.reverse_concat,
        Nat.ofDigits_cons, Nat.add_comm]

theorem forall₂_digit_iff {r : Radix} {digits : Text} {ns : List Nat} :
    List.Forall₂ r.Digit digits ns ↔
      (∀ c ∈ digits, r.hasDigit c) ∧ ns = digits.map CodePoint.digitValue := by
  induction digits generalizing ns with
  | nil => simp
  | cons c digits ih =>
      rw [List.forall₂_cons_left_iff]
      simp only [Radix.digit_iff, ih, List.forall_mem_cons, List.map_cons]
      constructor
      · rintro ⟨n, ns, ⟨hc, rfl⟩, ⟨hdigits, rfl⟩, rfl⟩
        exact ⟨⟨hc, hdigits⟩, rfl⟩
      · rintro ⟨⟨hc, hdigits⟩, rfl⟩
        exact ⟨_, _, ⟨hc, rfl⟩, ⟨hdigits, rfl⟩, rfl⟩

/-- A digit sequence denotes the value that is computed for it. -/
theorem denotes_iff {r : Radix} {digits : Text} {n : Nat} :
    Denotes r digits n ↔ (∀ c ∈ digits, r.hasDigit c) ∧ n = value r digits := by
  simp only [Denotes, forall₂_digit_iff, value_eq_ofDigits]
  constructor
  · rintro ⟨ns, ⟨hdigits, rfl⟩, hn⟩
    exact ⟨hdigits, hn⟩
  · rintro ⟨hdigits, hn⟩
    exact ⟨_, ⟨hdigits, rfl⟩, hn⟩

end Numeral

namespace Integer

/-- How the radix of an integer in a base is found: the base fixes it, a mark
announces it, or it is decimal, where no mark begins what follows the sign. -/
inductive Announces (base : Int) : (mark : Text) → Radix → (following : Text) → Prop
  | fixed (r : Radix) (following : Text) (hbase : base = r.base) :
      Announces base [] r following
  | marked {mark label : Text} {r : Radix} (following : Text) (hbase : base = 0)
      (hmark : Radix.Mark mark r label) : Announces base mark r following
  | unmarked (following : Text) (hbase : base = 0)
      (hnone : ∀ mark r label, Radix.Mark mark r label → ¬ mark <+: following) :
      Announces base [] .decimal following

theorem Announces.exists_mark {base : Int} {mark following : Text} {r : Radix}
    (h : Announces base mark r following) (hmark : mark ≠ []) :
    ∃ label, Radix.Mark mark r label := by
  cases h with
  | fixed => exact absurd rfl hmark
  | marked _ _ hmark => exact ⟨_, hmark⟩
  | unmarked => exact absurd rfl hmark

/-- The sign of an integer: a minus sign, if the text begins with one. -/
def IsSign (sign input : Text) : Prop :=
  sign = "-" ∨ sign = [] ∧ ¬ ("-" : Text) <+: input

/-- The number with a sign. -/
def signed (sign : Text) (n : Nat) : Int := if sign = [] then n else -n

/-- A division of a text that is read as an integer in a base. -/
structure Layout (base : Int) (input : Text) where
  sign : Text
  mark : Text
  radix : Radix
  digits : Text
  rest : Text
  append_eq : sign ++ (mark ++ (digits ++ rest)) = input
  isSign : IsSign sign input
  announces : Announces base mark radix (digits ++ rest)
  digit_of_mem : ∀ c ∈ digits, ∃ n, radix.Digit c n
  /-- The digits are all there are. -/
  not_digit_head : ∀ c ∈ rest.head?, ¬ ∃ n, radix.Digit c n

/-- What an integer in a base is to a text. -/
inductive Answers (base : Int) (input : Text) : Outcome Reply → Prop
  /-- A number is the one that the digits denote, with its sign. -/
  | number (l : Layout base input) {n : Nat} (hdigits : l.digits ≠ [])
      (hlength : l.radix = .decimal → l.digits.length ≤ 4300)
      (hn : Numeral.Denotes l.radix l.digits n) :
      Answers base input (.ok (.success (.int (signed l.sign n)) l.rest))
  /-- Without a digit after a mark, the failure is after the mark. -/
  | missing (l : Layout base input) {label : Text} (hdigits : l.digits = [])
      (hmark : Radix.Mark l.mark l.radix label) :
      Answers base input (.ok (.failure label l.rest))
  /-- Without a digit and a mark, it is before the sign. -/
  | none (l : Layout base input) (hdigits : l.digits = []) (hmark : l.mark = []) :
      Answers base input (.ok (.failure "integer" input))
  /-- A decimal numeral of more than 4300 digits is refused. -/
  | tooLong (l : Layout base input) (hradix : l.radix = .decimal)
      (hlength : 4300 < l.digits.length) :
      Answers base input (.error (.fault .numeralTooLong))

theorem splitSign_of_append {sign unsigned input : Text}
    (happend : sign ++ unsigned = input) (h : IsSign sign input) :
    splitSign input = (!sign.isEmpty, unsigned) := by
  rcases h with rfl | ⟨rfl, hnone⟩
  · rw [← happend]
    rfl
  · obtain rfl : unsigned = input := happend
    unfold splitSign
    split
    · next rest hstrip =>
        exact absurd ⟨rest, (Text.strip?_eq_some_iff.mp hstrip).symm⟩ hnone
    · rfl

theorem exists_isSign (input : Text) :
    ∃ sign unsigned, sign ++ unsigned = input ∧ IsSign sign input := by
  by_cases h : ("-" : Text) <+: input
  · obtain ⟨unsigned, happend⟩ := h
    exact ⟨_, unsigned, happend, .inl rfl⟩
  · exact ⟨[], input, rfl, .inr ⟨rfl, h⟩⟩

/-- The longest beginning of elements with a property is found where the next one has
it no more. -/
theorem takeWhile_dropWhile_append {α : Type} {p : α → Bool} {front rest : List α}
    (hfront : ∀ a ∈ front, p a) (hrest : ∀ a ∈ rest.head?, ¬ p a) :
    (front ++ rest).takeWhile p = front ∧ (front ++ rest).dropWhile p = rest := by
  rw [List.takeWhile_append_of_pos hfront, List.dropWhile_append_of_pos hfront]
  cases rest with
  | nil => simp
  | cons a rest => simp [hrest a rfl]

theorem ofDigits_append {sign digits rest : Text} {r : Radix}
    (hdigits : ∀ c ∈ digits, r.hasDigit c) (hrest : ∀ c ∈ rest.head?, ¬ r.hasDigit c)
    (failure : Reply) :
    ofDigits (!sign.isEmpty) r (digits ++ rest) failure =
      if digits = [] then .ok failure
      else (Numeral.read r digits).map fun n => .success (.int (signed sign n)) rest := by
  have hsigned : ∀ n : Nat, (if (!sign.isEmpty) = true then -(n : Int) else n) =
      signed sign n := by
    intro n
    cases sign <;> rfl
  obtain ⟨htake, hdrop⟩ := takeWhile_dropWhile_append hdigits hrest
  unfold ofDigits
  rw [htake, hdrop]
  simp only [List.isEmpty_iff, hsigned]
  split
  · rfl
  · cases Numeral.read r digits with
    | error cause => rfl
    | ok n => rfl

theorem ofBase?_zero : Radix.ofBase? 0 = none := rfl

theorem ofBase?_base (r : Radix) : Radix.ofBase? r.base = some r := by
  cases r <;> rfl

/-- The radix that is announced is the one that is read in. -/
theorem parse_of_announces {base : Int} {negative : Bool} {input mark following : Text}
    {r : Radix} (hsplit : splitSign input = (negative, mark ++ following))
    (h : Announces base mark r following) :
    parse (Radix.ofBase? base) input = ofDigits negative r following
      (if mark = [] then .failure "integer" input
        else .failure (missingDigit mark r) following) := by
  unfold parse
  rw [hsplit]
  cases h with
  | fixed _ _ hbase =>
      rw [hbase, ofBase?_base]
      rfl
  | marked _ hbase hmark =>
      rw [hbase, if_neg hmark.ne_nil]
      simp only [ofBase?_zero, Radix.marked?_append hmark]
  | unmarked _ hbase hnone =>
      rw [hbase, if_pos rfl]
      simp only [ofBase?_zero, List.nil_append, Radix.marked?_eq_none_iff.mpr hnone]

theorem exists_base {base : Int} (hbase : base ∈ [0, 2, 8, 10, 16]) :
    base = 0 ∨ ∃ r : Radix, base = r.base := by
  simp only [List.mem_cons, List.not_mem_nil, or_false] at hbase
  rcases hbase with rfl | rfl | rfl | rfl | rfl
  · exact .inl rfl
  · exact .inr ⟨.binary, rfl⟩
  · exact .inr ⟨.octal, rfl⟩
  · exact .inr ⟨.decimal, rfl⟩
  · exact .inr ⟨.hexadecimal, rfl⟩

namespace Layout

variable {base : Int} {input : Text}

/-- The division with the digits that there are. -/
theorem exists_of_announces {sign mark following : Text} {r : Radix}
    (happend : sign ++ (mark ++ following) = input) (hsign : IsSign sign input)
    (hannounces : Announces base mark r following) : Nonempty (Layout base input) := by
  have hfollowing : following.takeWhile r.hasDigit ++ following.dropWhile r.hasDigit =
      following := List.takeWhile_append_dropWhile
  refine ⟨{
    sign, mark
    radix := r
    digits := following.takeWhile r.hasDigit
    rest := following.dropWhile r.hasDigit
    append_eq := by rw [hfollowing, happend]
    isSign := hsign
    announces := by rwa [hfollowing]
    digit_of_mem := ?_
    not_digit_head := ?_ }⟩
  · intro c hc
    exact Radix.hasDigit_iff.mp (List.mem_takeWhile_imp hc)
  · intro c hc hdigit
    have hhead := List.head?_dropWhile_not r.hasDigit following
    rw [hc] at hhead
    simp [Radix.hasDigit_iff.mpr hdigit] at hhead

/-- Every text divides in every base. -/
theorem exists_layout (hbase : base ∈ [0, 2, 8, 10, 16]) (input : Text) :
    Nonempty (Layout base input) := by
  obtain ⟨sign, unsigned, happend, hsign⟩ := exists_isSign input
  have hplain : sign ++ ([] ++ unsigned) = input := happend
  rcases exists_base hbase with hzero | ⟨r, hr⟩
  · cases hmarked : Radix.marked? unsigned with
    | none =>
        exact exists_of_announces hplain hsign
          (.unmarked _ hzero (Radix.marked?_eq_none_iff.mp hmarked))
    | some found =>
        obtain ⟨mark, r, following⟩ := found
        obtain ⟨⟨label, hmark⟩, rfl⟩ := Radix.mark_of_marked? hmarked
        exact exists_of_announces happend hsign (.marked _ hzero hmark)
  · exact exists_of_announces hplain hsign (.fixed r _ hr)

theorem hasDigit_of_mem (l : Layout base input) : ∀ c ∈ l.digits, l.radix.hasDigit c := by
  intro c hc
  exact Radix.hasDigit_iff.mpr (l.digit_of_mem c hc)

/-- What is read from a text follows from any division of it. -/
theorem parse_eq (l : Layout base input) :
    parse (Radix.ofBase? base) input =
      if l.digits = [] then
        .ok (if l.mark = [] then .failure "integer" input
          else .failure (missingDigit l.mark l.radix) (l.digits ++ l.rest))
      else (Numeral.read l.radix l.digits).map fun n =>
        .success (.int (signed l.sign n)) l.rest := by
  have hrest : ∀ c ∈ l.rest.head?, ¬ l.radix.hasDigit c := by
    intro c hc hdigit
    exact l.not_digit_head c hc (Radix.hasDigit_iff.mp hdigit)
  have hsplit := splitSign_of_append l.append_eq l.isSign
  rw [parse_of_announces hsplit l.announces, ofDigits_append l.hasDigit_of_mem hrest]

theorem exists_answers (l : Layout base input) :
    ∃ outcome, Answers base input outcome := by
  by_cases hdigits : l.digits = []
  · by_cases hmark : l.mark = []
    · exact ⟨_, .none l hdigits hmark⟩
    · obtain ⟨label, hlabel⟩ := l.announces.exists_mark hmark
      exact ⟨_, .missing l hdigits hlabel⟩
  · by_cases hlong : l.radix = .decimal ∧ 4300 < l.digits.length
    · exact ⟨_, .tooLong l hlong.1 hlong.2⟩
    · have hlength : l.radix = .decimal → l.digits.length ≤ 4300 := by
        intro hradix
        exact Nat.not_lt.mp fun h => hlong ⟨hradix, h⟩
      have hn := Numeral.denotes_iff.mpr ⟨l.hasDigit_of_mem, rfl⟩
      exact ⟨_, .number l hdigits hlength hn⟩

end Layout

/-- What is read is what the grammar of integers says. -/
theorem outcome_of_answers {base : Int} {input : Text} {outcome : Outcome Reply}
    (h : Answers base input outcome) :
    .ofExcept (parse (Radix.ofBase? base) input) = outcome := by
  cases h with
  | number l hdigits hlength hn =>
      obtain ⟨_, rfl⟩ := Numeral.denotes_iff.mp hn
      have hread : Numeral.read l.radix l.digits = .ok (Numeral.value l.radix l.digits) :=
        if_neg fun ⟨hradix, hlong⟩ => Nat.not_lt.mpr (hlength hradix) hlong
      rw [l.parse_eq, if_neg hdigits, hread]
      rfl
  | missing l hdigits hmark =>
      rw [l.parse_eq, if_pos hdigits, if_neg hmark.ne_nil, hdigits,
        Radix.missingDigit_of_mark hmark]
      rfl
  | none l hdigits hmark =>
      rw [l.parse_eq, if_pos hdigits, if_pos hmark]
      rfl
  | tooLong l hradix hlength =>
      have hdigits : l.digits ≠ [] := List.ne_nil_of_length_pos (by omega)
      have hread : Numeral.read l.radix l.digits = .error .numeralTooLong :=
        if_pos ⟨hradix, hlength⟩
      rw [l.parse_eq, if_neg hdigits, hread]
      rfl

theorem integerOf_eq {base : Int} (hbase : base ∈ [0, 2, 8, 10, 16]) :
    Parser.integerOf base = .ok (.integer (Radix.ofBase? base)) := by
  rcases exists_base hbase with rfl | ⟨r, rfl⟩
  · rfl
  · cases r <;> rfl

/-- **Integers.**  In each of the bases there is a parser, and what it answers to a
text is what an integer in the base is to the text. -/
theorem answers_run_iff {base : Int} (hbase : base ∈ [0, 2, 8, 10, 16]) :
    ∃ p, Parser.integerOf base = .ok p ∧
      ∀ (g : Grammar) (s : Settings) (limit : Nat) (input : Text)
        (outcome : Outcome Reply),
        (g.run s limit p input).outcome = outcome ↔ Answers base input outcome := by
  refine ⟨_, integerOf_eq hbase, fun g s limit input outcome => ?_⟩
  have hrun : (g.run s limit (.integer (Radix.ofBase? base)) input).outcome =
      .ofExcept (parse (Radix.ofBase? base) input) := rfl
  rw [hrun]
  constructor
  · rintro rfl
    obtain ⟨l⟩ := Layout.exists_layout hbase input
    obtain ⟨outcome, hanswers⟩ := l.exists_answers
    rwa [outcome_of_answers hanswers]
  · exact outcome_of_answers

/-- A negative hexadecimal integer, followed by a letter that is no digit. -/
theorem answers_hexadecimal :
    ∃ p, Parser.integerOf 0 = .ok p ∧
      (∀ (g : Grammar) (s : Settings) (limit : Nat),
        (g.run s limit p "-0x1Fz").outcome = .ok (.success (.int (-31)) "z")) ∧
      Answers 0 "-0x1Fz" (.ok (.success (.int (-31)) "z")) := by
  obtain ⟨p, hp, hanswers⟩ := answers_run_iff (by decide : (0 : Int) ∈ [0, 2, 8, 10, 16])
  cases hp
  have hrun : ∀ (g : Grammar) (s : Settings) (limit : Nat),
      (g.run s limit (.integer none) "-0x1Fz").outcome =
        .ok (.success (.int (-31)) "z") := fun g s limit => rfl
  exact ⟨_, rfl, hrun, (hanswers {} {} 0 _ _).mp (hrun {} {} 0)⟩

/-- In base sixteen the binary mark is a numeral. -/
example : parse (Radix.ofBase? 16) "0b1" = .ok (.success (.int 177) "") := by rfl

/-- A run that is not cut short gives a number or a failure. -/
inductive IsResult : Outcome Reply → Prop
  | number (n : Int) (rest : Text) : IsResult (.ok (.success (.int n) rest))
  | failure (label rest : Text) : IsResult (.ok (.failure label rest))

/-- What is read in the base is a decimal numeral of more than 4300 digits, zeros at
its beginning included. -/
def Overlong (base : Int) (input : Text) : Prop :=
  ∃ l : Layout base input, l.radix = .decimal ∧ 4300 < l.digits.length

theorem outcome_run_integer (g : Grammar) (s : Settings) (limit : Nat)
    (radix : Option Radix) (input : Text) :
    (g.run s limit (.integer radix) input).outcome = .ofExcept (parse radix input) :=
  rfl

theorem outcome_of_overlong {base : Int} {input : Text} (h : Overlong base input) :
    Outcome.ofExcept (parse (Radix.ofBase? base) input) =
      .error (.fault .numeralTooLong) := by
  obtain ⟨l, hradix, hlength⟩ := h
  exact outcome_of_answers (.tooLong l hradix hlength)

theorem isResult_of_not_overlong {base : Int} (hbase : base ∈ [0, 2, 8, 10, 16])
    {input : Text} (h : ¬ Overlong base input) :
    IsResult (.ofExcept (parse (Radix.ofBase? base) input)) := by
  obtain ⟨l⟩ := Layout.exists_layout hbase input
  obtain ⟨outcome, hanswers⟩ := l.exists_answers
  rw [outcome_of_answers hanswers]
  cases hanswers with
  | number l hdigits hlength hn => exact .number _ _
  | missing l hdigits hmark => exact .failure _ _
  | none l hdigits hmark => exact .failure _ _
  | tooLong l hradix hlength => exact absurd ⟨l, hradix, hlength⟩ h

/-- **Long integers.**  In each of the bases there is a parser, and its run gives a
result on a text exactly if no decimal numeral of more than 4300 digits is read
there.  Where one is, the run is cut short. -/
theorem isResult_run_iff {base : Int} (hbase : base ∈ [0, 2, 8, 10, 16]) :
    ∃ p, Parser.integerOf base = .ok p ∧
      ∀ (g : Grammar) (s : Settings) (limit : Nat) (input : Text),
        (IsResult (g.run s limit p input).outcome ↔ ¬ Overlong base input) ∧
        ((g.run s limit p input).outcome = .error (.fault .numeralTooLong) ↔
          Overlong base input) := by
  refine ⟨_, integerOf_eq hbase, fun g s limit input => ?_⟩
  rw [outcome_run_integer]
  by_cases hlong : Overlong base input
  · rw [outcome_of_overlong hlong]
    refine ⟨iff_of_false ?_ (not_not_intro hlong), iff_of_true rfl hlong⟩
    intro hresult
    cases hresult
  · have hresult := isResult_of_not_overlong hbase hlong
    refine ⟨iff_of_true hresult hlong, iff_of_false ?_ hlong⟩
    intro hfault
    rw [hfault] at hresult
    cases hresult

/-- A numeral of ones only. -/
def ones (n : Nat) : Text := List.replicate n (.ofChar '1')

theorem not_prefix_ones {start : Text} {c : CodePoint} (hc : c ≠ .ofChar '1') (n : Nat) :
    ¬ c :: start <+: ones n := by
  intro hstart
  exact hc (List.eq_of_mem_replicate (hstart.subset List.mem_cons_self))

/-- Ones are read as a decimal numeral if the base is left to a mark. -/
def onesLayout (n : Nat) : Layout 0 (ones n) where
  sign := []
  mark := []
  radix := .decimal
  digits := ones n
  rest := []
  append_eq := List.append_nil (ones n)
  isSign := .inr ⟨rfl, not_prefix_ones (by decide) n⟩
  announces := by
    refine .unmarked _ rfl fun mark r label hmark => ?_
    rw [List.append_nil]
    cases hmark with
    | binary => exact not_prefix_ones (by decide) n
    | octal => exact not_prefix_ones (by decide) n
    | hexadecimal => exact not_prefix_ones (by decide) n
  digit_of_mem := by
    intro c hc
    exact ⟨1, by decide, by rw [List.eq_of_mem_replicate hc]; rfl⟩
  not_digit_head := by
    intro c hc
    cases hc

theorem overlong_ones {n : Nat} (h : 4300 < n) : Overlong 0 (ones n) := by
  have hlength : (onesLayout n).digits.length = n := List.length_replicate
  exact ⟨onesLayout n, rfl, by rwa [hlength]⟩

/-- Up to the limit, ones are read. -/
theorem ones_isResult :
    ∃ p, Parser.integerOf 0 = .ok p ∧
      ¬ Overlong 0 (ones 4300) ∧
      ∀ (g : Grammar) (s : Settings) (limit : Nat),
        IsResult (g.run s limit p (ones 4300)).outcome := by
  obtain ⟨p, hp, hresult⟩ := isResult_run_iff (by decide : (0 : Int) ∈ [0, 2, 8, 10, 16])
  have hshort : ¬ Overlong 0 (ones 4300) := by
    rintro ⟨l, _, hlength⟩
    have htotal := congrArg List.length l.append_eq
    simp only [ones, List.length_append, List.length_replicate] at htotal
    omega
  exact ⟨p, hp, hshort, fun g s limit => (hresult g s limit _).1.mpr hshort⟩

/-- One more, and the run is cut short. -/
theorem ones_not_isResult :
    ∃ p, Parser.integerOf 0 = .ok p ∧
      ∀ (g : Grammar) (s : Settings) (limit : Nat),
        (g.run s limit p (ones 4301)).outcome = .error (.fault .numeralTooLong) ∧
        ¬ IsResult (g.run s limit p (ones 4301)).outcome := by
  have hlong : Overlong 0 (ones 4301) := overlong_ones (by omega)
  refine ⟨_, integerOf_eq (by decide), fun g s limit => ?_⟩
  rw [outcome_run_integer, outcome_of_overlong hlong]
  refine ⟨rfl, ?_⟩
  intro hresult
  cases hresult

end Integer

end ParserAlgebra
