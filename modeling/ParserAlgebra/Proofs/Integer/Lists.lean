import ParserAlgebra.Parser.Repetition
import ParserAlgebra.Proofs.Integer
import ParserAlgebra.Proofs.Repetition.CodePoints
import ParserAlgebra.Proofs.Repetition.Separated
/-!
# Lists of integers

A list of integers is written as numerals with commas in between, with white space after
each numeral and each comma (`Integer.WrittenList`).  A numeral is decimal or has a mark
for its radix, so there are many ways to write one list; what is read from each of them
is the list, and what follows it is left as it is (`Integer.reads_written_list`).

Three things have to fit together for this.  The digits of a numeral end where white
space, a comma or the rest begins, since none of these begins with a letter or a digit
(`Written.answers_append`).  A decimal numeral is not taken for a mark, although it may be
a single zero (`not_begins_with_mark`).  And after the white space that is skipped, there is
the next comma, the next numeral, or the rest itself.
-/

namespace ParserAlgebra

/-- White space only. -/
def Text.Blank (t : Text) : Prop := ∀ c ∈ t, c ∈ Alphabet.whitespace

instance (t : Text) : Decidable t.Blank :=
  inferInstanceAs (Decidable (∀ c ∈ t, c ∈ Alphabet.whitespace))

namespace Integer

/-- A numeral of an integer: decimal digits, or a mark and digits of its radix, and
a minus sign in front of them or not. -/
inductive Written : Int → Text → Prop
  | decimal {sign digits : Text} {n : Nat} (hsign : sign = [] ∨ sign = "-")
      (hdigits : digits ≠ []) (hlength : digits.length ≤ 4300)
      (hn : Numeral.Denotes .decimal digits n) :
      Written (signed sign n) (sign ++ digits)
  | marked {sign mark label digits : Text} {r : Radix} {n : Nat}
      (hsign : sign = [] ∨ sign = "-") (hmark : Radix.Mark mark r label)
      (hdigits : digits ≠ []) (hn : Numeral.Denotes r digits n) :
      Written (signed sign n) (sign ++ (mark ++ digits))

/-- Numerals with commas in between, and white space after each of both. -/
inductive WrittenList : List Int → Text → Prop
  | last {n : Int} {t blank : Text} (hn : Written n t) (hblank : blank.Blank) :
      WrittenList [n] (t ++ blank)
  | more {n : Int} {ns : List Int} {t blank blank' u : Text} (hn : Written n t)
      (hblank : blank.Blank) (hblank' : blank'.Blank) (hrest : WrittenList ns u) :
      WrittenList (n :: ns) (t ++ (blank ++ (CodePoint.ofChar ',' :: (blank' ++ u))))

variable {n : Int} {t rest : Text}

theorem mem_alphanumeric_of_hasDigit {r : Radix} {c : CodePoint} (h : r.hasDigit c) :
    c ∈ Alphabet.alphanumeric := by
  have hall : ∀ c ∈ r.digits, c ∈ Alphabet.alphanumeric := by
    cases r <;> decide
  exact hall c (List.contains_iff_mem.mp h)

/-- The second letter of a mark tells it from decimal digits. -/
theorem exists_letter_of_mark {mark label : Text} {r : Radix}
    (h : Radix.Mark mark r label) :
    ∃ letter, mark = [CodePoint.ofChar '0', letter] ∧
      ¬ Radix.decimal.hasDigit letter ∧ letter ∈ Alphabet.alphanumeric := by
  cases h with
  | binary => exact ⟨.ofChar 'b', rfl, by decide, by decide⟩
  | octal => exact ⟨.ofChar 'o', rfl, by decide, by decide⟩
  | hexadecimal => exact ⟨.ofChar 'x', rfl, by decide, by decide⟩

/-- No mark begins a decimal numeral that no letter follows. -/
theorem not_begins_with_mark {digits : Text}
    (hdigits : ∀ c ∈ digits, Radix.decimal.hasDigit c) (hne : digits ≠ [])
    (hrest : ∀ c ∈ rest.head?, c ∉ Alphabet.alphanumeric) :
    ∀ mark r label, Radix.Mark mark r label → ¬ mark <+: digits ++ rest := by
  intro mark r label hmark hstart
  obtain ⟨letter, rfl, hletter, halphanumeric⟩ := exists_letter_of_mark hmark
  cases digits with
  | nil => exact hne rfl
  | cons c digits =>
      have htail := (List.cons_prefix_cons.mp hstart).2
      cases digits with
      | nil =>
          obtain ⟨rest', rfl⟩ := htail
          exact hrest letter rfl halphanumeric
      | cons c' digits =>
          obtain rfl := (List.cons_prefix_cons.mp htail).1
          exact hletter (hdigits letter (by simp))

theorem mem_alphanumeric_of_head_digits {r : Radix} {digits : Text}
    (hdigits : ∀ c ∈ digits, r.hasDigit c) (hne : digits ≠ []) (rest : Text) :
    ∀ c ∈ (digits ++ rest).head?, c ∈ Alphabet.alphanumeric := by
  intro c hc
  rw [List.head?_append_of_ne_nil _ hne] at hc
  exact mem_alphanumeric_of_hasDigit (hdigits c (List.mem_of_mem_head? hc))

theorem mem_alphanumeric_of_head_mark {mark label : Text} {r : Radix}
    (hmark : Radix.Mark mark r label) (rest : Text) :
    ∀ c ∈ (mark ++ rest).head?, c ∈ Alphabet.alphanumeric := by
  obtain ⟨letter, rfl, -, -⟩ := exists_letter_of_mark hmark
  intro c hc
  cases hc
  decide

/-- White space is neither a letter nor a digit. -/
theorem notMem_alphanumeric_of_mem_whitespace :
    ∀ c ∈ Alphabet.whitespace, c ∉ Alphabet.alphanumeric := by
  decide

/-- A numeral begins with its sign, or with a digit. -/
theorem isSign_append {sign body : Text} (hsign : sign = [] ∨ sign = "-")
    (hbody : ∀ c ∈ body.head?, c ∈ Alphabet.alphanumeric) : IsSign sign (sign ++ body) := by
  rcases hsign with rfl | rfl
  · apply Or.inr
    refine ⟨rfl, ?_⟩
    intro ⟨body', hbody'⟩
    obtain rfl : CodePoint.ofChar '-' :: body' = body := hbody'
    have hminus := hbody _ rfl
    revert hminus
    decide
  · exact .inl rfl

/-- What the parts of a numeral make together. -/
theorem answers_of_parts {sign mark digits : Text} {r : Radix} {n : Nat}
    (hsign : IsSign sign (sign ++ (mark ++ (digits ++ rest))))
    (hannounces : Announces 0 mark r (digits ++ rest)) (hdigits : digits ≠ [])
    (hlength : r = .decimal → digits.length ≤ 4300) (hn : Numeral.Denotes r digits n)
    (hrest : ∀ c ∈ rest.head?, c ∉ Alphabet.alphanumeric) :
    Answers 0 (sign ++ (mark ++ (digits ++ rest)))
      (.ok (.success (.int (signed sign n)) rest)) := by
  let l : Layout 0 (sign ++ (mark ++ (digits ++ rest))) := {
    sign, mark, digits, rest
    radix := r
    append_eq := rfl
    isSign := hsign
    announces := hannounces
    digit_of_mem := fun c hc => Radix.hasDigit_iff.mp ((Numeral.denotes_iff.mp hn).1 c hc)
    not_digit_head := fun c hc hdigit =>
      hrest c hc (mem_alphanumeric_of_hasDigit (Radix.hasDigit_iff.mpr hdigit)) }
  exact .number l hdigits hlength hn

/-- **Numerals are read back**, and the digits end where no letter or digit follows. -/
theorem Written.answers_append (h : Written n t)
    (hrest : ∀ c ∈ rest.head?, c ∉ Alphabet.alphanumeric) :
    Answers 0 (t ++ rest) (.ok (.success (.int n) rest)) := by
  cases h with
  | @decimal sign digits n hsign hdigits hlength hn =>
      have hall := (Numeral.denotes_iff.mp hn).1
      have hhead := mem_alphanumeric_of_head_digits hall hdigits rest
      have hannounces : Announces 0 [] .decimal (digits ++ rest) :=
        .unmarked _ rfl (not_begins_with_mark hall hdigits hrest)
      rw [List.append_assoc]
      exact answers_of_parts (isSign_append hsign hhead) hannounces hdigits
        (fun _ => hlength) hn hrest
  | @marked sign mark label digits r n hsign hmark hdigits hn =>
      have hhead := mem_alphanumeric_of_head_mark hmark (digits ++ rest)
      have hlength : r = .decimal → digits.length ≤ 4300 := by
        intro hr
        subst hr
        cases hmark
      rw [List.append_assoc, List.append_assoc]
      exact answers_of_parts (isSign_append hsign hhead) (.marked _ rfl hmark) hdigits
        hlength hn hrest

theorem Written.notMem_whitespace_head (h : Written n t) (rest : Text) :
    ∀ c ∈ (t ++ rest).head?, c ∉ Alphabet.whitespace := by
  have hbody : ∀ sign body : Text, (sign = [] ∨ sign = "-") →
      (∀ c ∈ body.head?, c ∈ Alphabet.alphanumeric) →
      ∀ c ∈ (sign ++ body).head?, c ∉ Alphabet.whitespace := by
    intro sign body hsign hhead c hc hwhite
    rcases hsign with rfl | rfl
    · exact notMem_alphanumeric_of_mem_whitespace c hwhite (hhead c hc)
    · cases hc
      revert hwhite
      decide
  cases h with
  | decimal hsign hdigits _ hn =>
      rw [List.append_assoc]
      have hall := (Numeral.denotes_iff.mp hn).1
      exact hbody _ _ hsign (mem_alphanumeric_of_head_digits hall hdigits rest)
  | marked hsign hmark =>
      rw [List.append_assoc, List.append_assoc]
      exact hbody _ _ hsign (mem_alphanumeric_of_head_mark hmark _)

theorem WrittenList.notMem_whitespace_head {ns : List Int} (h : WrittenList ns t)
    (rest : Text) : ∀ c ∈ (t ++ rest).head?, c ∉ Alphabet.whitespace := by
  cases h with
  | last hn =>
      rw [List.append_assoc]
      exact hn.notMem_whitespace_head _
  | more hn =>
      rw [List.append_assoc]
      exact hn.notMem_whitespace_head _

section Reading

variable {g : Grammar} {s : Settings} {blank : Text} {ns : List Int}

/-- A numeral and the white space after it. -/
def item : Parser := .token (.integer none)

/-- A comma and the white space after it. -/
def comma : Parser := .token (.char ',')

/-- White space up to something else is skipped. -/
theorem concludes_token {p : Parser} {input : Text} {v : Value} (hblank : blank.Blank)
    (hrest : ∀ c ∈ rest.head?, c ∉ Alphabet.whitespace)
    (h : g.Concludes s p input (.ok (.success v (blank ++ rest)))) :
    g.Concludes s (.token p) input (.ok (.success v rest)) := by
  have hwhite : ∀ c ∈ blank, Leaf.isWhitespace c :=
    fun c hc => List.contains_iff_mem.mpr (hblank c hc)
  have hstop : ∀ c ∈ rest.head?, ¬ Leaf.isWhitespace c :=
    fun c hc hspace => hrest c hc (List.contains_iff_mem.mp hspace)
  have hskip := (takeWhile_dropWhile_append hwhite hstop).2
  have hwhitespace : g.Concludes s .whitespace (blank ++ rest) (.ok (.discarded rest)) := by
    apply Grammar.concludes_leaf
    rw [Leaf.run, hskip]
  exact Grammar.concludes_keepFirst h rfl hwhitespace rfl

/-- Neither white space nor what follows it makes a numeral longer. -/
theorem notMem_alphanumeric_head (hblank : blank.Blank)
    (hrest : ∀ c ∈ rest.head?, c ∉ Alphabet.alphanumeric) :
    ∀ c ∈ (blank ++ rest).head?, c ∉ Alphabet.alphanumeric := by
  cases blank with
  | nil => exact hrest
  | cons c blank =>
      intro c' hc'
      cases hc'
      exact notMem_alphanumeric_of_mem_whitespace c (hblank c List.mem_cons_self)

theorem Written.returns_item (h : Written n t) (hblank : blank.Blank)
    (hwhite : ∀ c ∈ rest.head?, c ∉ Alphabet.whitespace)
    (hrest : ∀ c ∈ rest.head?, c ∉ Alphabet.alphanumeric) :
    g.Returns s item (t ++ (blank ++ rest)) (.success (.int n) rest) := by
  have hanswers := h.answers_append (notMem_alphanumeric_head hblank hrest)
  have hnumeral : g.Concludes s (.integer none) (t ++ (blank ++ rest))
      (.ok (.success (.int n) (blank ++ rest))) :=
    Grammar.concludes_leaf (outcome_of_answers hanswers)
  exact Grammar.concludes_ok_iff.mp (concludes_token hblank hwhite hnumeral)

theorem returns_comma (hblank : blank.Blank)
    (hwhite : ∀ c ∈ rest.head?, c ∉ Alphabet.whitespace) :
    g.Returns s comma (CodePoint.ofChar ',' :: (blank ++ rest))
      (.success (.text ",") rest) := by
  have hchar := Grammar.concludes_char (g := g) (s := s) ',' (blank ++ rest)
  exact Grammar.concludes_ok_iff.mp (concludes_token hblank hwhite hchar)

/-- A list ends where there is no comma. -/
theorem listEnds_of_no_comma (hrest : ∀ c ∈ rest.head?, c ≠ CodePoint.ofChar ',') :
    ListEnds (g.Returns s comma) (g.Returns s item) rest := by
  have hchar := Grammar.concludes_char_of_head?_ne (g := g) (s := s)
    fun h => hrest (.ofChar ',') h rfl
  have hcomma := Grammar.concludes_keepFirst_of_failure (q := .whitespace) hchar
  exact .noSeparator (Grammar.concludes_ok_iff.mp hcomma)

/-- What a list is read as: its first numeral, and then commas and further numerals
up to the rest. -/
theorem WrittenList.furtherItems (h : WrittenList ns t)
    (hrest : ∀ c ∈ rest.head?, c ∉ Alphabet.whitespace ∧ c ≠ CodePoint.ofChar ',' ∧
      c ∉ Alphabet.alphanumeric) :
    ∃ n ns' u, ns = n :: ns' ∧ u.length ≤ (t ++ rest).length ∧
      g.Returns s item (t ++ rest) (.success (.int n) u) ∧
      FurtherItems (g.Returns s comma) (g.Returns s item) u (ns'.map .int) rest := by
  induction h with
  | @last n t blank hn hblank =>
      have hitem : g.Returns s item (t ++ (blank ++ rest)) (.success (.int n) rest) :=
        hn.returns_item hblank (fun c hc => (hrest c hc).1) fun c hc => (hrest c hc).2.2
      rw [← List.append_assoc] at hitem
      have hends := listEnds_of_no_comma (g := g) (s := s) fun c hc => (hrest c hc).2.1
      refine ⟨n, [], rest, rfl, ?_, hitem, .done hends⟩
      rw [List.length_append]
      omega
  | @more n ns t blank blank' u hn hblank hblank' hu ih =>
      obtain ⟨n', ns', last, rfl, hlength, hitem', hfurther⟩ := ih
      have hcomma := returns_comma (g := g) (s := s) hblank' (hu.notMem_whitespace_head rest)
      have hitem : g.Returns s item
          (t ++ (blank ++ (CodePoint.ofChar ',' :: (blank' ++ (u ++ rest)))))
          (.success (.int n) (CodePoint.ofChar ',' :: (blank' ++ (u ++ rest)))) := by
        apply hn.returns_item hblank
        · intro c hc
          cases hc
          decide
        · intro c hc
          cases hc
          decide
      have htext : t ++ (blank ++ (CodePoint.ofChar ',' :: (blank' ++ u))) ++ rest =
          t ++ (blank ++ (CodePoint.ofChar ',' :: (blank' ++ (u ++ rest)))) := by
        simp only [List.append_assoc, List.cons_append]
      rw [htext]
      refine ⟨n, n' :: ns', _, rfl, ?_, hitem, .more hcomma rfl hitem' rfl ?_ hfurther⟩
      · simp only [List.length_append, List.length_cons]
        omega
      · simp only [List.length_append, List.length_cons] at hlength ⊢
        omega

/-- **Lists of integers are read back.**  Of numerals in any radix with commas in between
and any white space after each, the list of their numbers is read, and what follows is
left, be it nothing or a text that begins with neither white space nor a comma, a letter
or a digit. -/
theorem reads_written_list (h : WrittenList ns t)
    (hrest : ∀ c ∈ rest.head?, c ∉ Alphabet.whitespace ∧ c ≠ CodePoint.ofChar ',' ∧
      c ∉ Alphabet.alphanumeric) :
    ∃ separator number, Parser.charOf "," = .ok separator ∧
      Parser.integerOf 0 = .ok number ∧
      ∀ g s, Grammar.Concludes g s (.sepBy (.token separator) (.token number)) (t ++ rest)
        (.ok (.success (.list (ns.map .int)) rest)) := by
  refine ⟨_, _, rfl, rfl, fun g s => ?_⟩
  obtain ⟨n, ns', u, rfl, -, hitem, hfurther⟩ := h.furtherItems (g := g) (s := s) hrest
  exact Grammar.concludes_sepBy hitem rfl hfurther

/-- Numerals in two radixes, with and without a sign, and uneven white space. -/
theorem reads_mixed_list :
    WrittenList [-7, 31, 0] "-7 ,\t0x1F,0\n" ∧
      ∃ separator number, Parser.charOf "," = .ok separator ∧
        Parser.integerOf 0 = .ok number ∧
        ∀ g s, Grammar.Concludes g s (.sepBy (.token separator) (.token number))
          "-7 ,\t0x1F,0\n;"
          (.ok (.success (.list [.int (-7), .int 31, .int 0]) ";")) := by
  have hminus : Written (-7) "-7" :=
    .decimal (.inr rfl) (by decide) (by decide) (Numeral.denotes_iff.mpr (by decide))
  have hhexadecimal : Written 31 "0x1F" :=
    .marked (.inl rfl) .hexadecimal (by decide) (Numeral.denotes_iff.mpr (by decide))
  have hzero : Written 0 "0" :=
    .decimal (.inl rfl) (by decide) (by decide) (Numeral.denotes_iff.mpr (by decide))
  have hempty : Text.Blank [] := by decide
  have hspace : Text.Blank " " := by decide
  have htab : Text.Blank "\t" := by decide
  have hline : Text.Blank "\n" := by decide
  have hlist : WrittenList [-7, 31, 0] "-7 ,\t0x1F,0\n" :=
    .more hminus hspace htab (.more hhexadecimal hempty hempty (.last hzero hline))
  exact ⟨hlist, reads_written_list hlist (by decide)⟩

end Reading

end Integer

end ParserAlgebra
