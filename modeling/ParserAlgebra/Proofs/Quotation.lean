import ParserAlgebra.Proofs.Integer
import ParserAlgebra.Proofs.Termination.Leaf
/-!
# Quoted strings

What a quoted string is, said apart from how it is read.  At each place of the
contents stands one thing (`Quotation.Stands`): an item with a meaning, the closing
quote, or a mistake.  A text that begins with an opening quote divides into items and
what is left where they stop (`Quotation.Division`).

* `Quotation.item_of_stands` and `Quotation.stands_item`: what stands at a place is what
  is read there, so it is one thing only.
* `Quotation.Division.eq_of_stops`: a text divides up to where items stop in one way only.
* `Quotation.exists_items`: and it does divide, because an item takes something of
  the text.
* `Quotation.reads_run_iff`: so the reading of quoted strings is what their grammar
  says, failures included.
-/

namespace ParserAlgebra

namespace Text

theorem strip?_append (start rest : Text) : strip? start (start ++ rest) = some rest :=
  strip?_eq_some_iff.mpr rfl

theorem strip?_eq_none_iff {start text : Text} :
    strip? start text = none ↔ ¬ start <+: text := by
  constructor
  · rintro hnone ⟨rest, rfl⟩
    rw [strip?_append] at hnone
    cases hnone
  · intro h
    cases hstrip : strip? start text with
    | none => rfl
    | some rest => exact absurd ⟨rest, (strip?_eq_some_iff.mp hstrip).symm⟩ h

end Text

namespace Numeral

theorem value_lt {r : Radix} {digits : Text} (h : ∀ c ∈ digits, r.hasDigit c) :
    value r digits < r.base ^ digits.length := by
  have hbase : 1 < r.base := by cases r <;> decide
  have hlength : (digits.map CodePoint.digitValue).reverse.length = digits.length := by
    rw [List.length_reverse, List.length_map]
  rw [value_eq_ofDigits, ← hlength]
  apply Nat.ofDigits_lt_base_pow_length hbase
  intro n hn
  obtain ⟨c, hc, rfl⟩ := List.mem_map.mp (List.mem_reverse.mp hn)
  exact (Radix.digit_iff.mpr ⟨h c hc, rfl⟩).1

end Numeral

namespace Quotation

/-- No pair of a list has a first text that begins the text. -/
def NoneFits (table : List (Text × Text)) (text : Text) : Prop :=
  ∀ entry ∈ table, ¬ entry.1 <+: text

/-- The first pair of a list whose first text begins the text. -/
def FirstFits (table : List (Text × Text)) (text start meaning : Text) : Prop :=
  start <+: text ∧
    ∃ before after, table = before ++ (start, meaning) :: after ∧ NoneFits before text

/-- The four hexadecimal digits of the number of a code point. -/
def IsCode (digits : Text) (c : CodePoint) : Prop :=
  digits.length = 4 ∧ Numeral.Denotes .hexadecimal digits c.value

/-- What stands at the beginning of a text of the contents. -/
inductive Stands (q : Quotation) (closing : Text) : Text → Item → Prop
  /-- After the escape, a sequence of the table: the first one that fits. -/
  | sequence {spelling meaning rest : Text}
      (hfirst : FirstFits q.escapes (spelling ++ rest) spelling meaning) :
      Stands q closing (q.escape ++ (spelling ++ rest)) (.content meaning rest)
  /-- Else a code point by its number. -/
  | code {digits rest : Text} {c : CodePoint}
      (hnone : NoneFits q.escapes (.ofChar 'u' :: (digits ++ rest)))
      (hcode : IsCode digits c) :
      Stands q closing (q.escape ++ .ofChar 'u' :: (digits ++ rest)) (.content [c] rest)
  /-- Else a code point for itself. -/
  | escaped {c : CodePoint} {rest : Text} (hnone : NoneFits q.escapes (c :: rest))
      (hc : c ≠ .ofChar 'u') :
      Stands q closing (q.escape ++ c :: rest) (.content [c] rest)
  /-- The letter of a number without the number is a mistake, reported after it. -/
  | noCode {rest : Text} (hnone : NoneFits q.escapes (.ofChar 'u' :: rest))
      (hcode : ∀ digits c, IsCode digits c → ¬ digits <+: rest) :
      Stands q closing (q.escape ++ .ofChar 'u' :: rest)
        (.broken "4 hexadecimal characters after unicode escape" rest)
  /-- So is the escape with nothing after it. -/
  | nothing (hnone : NoneFits q.escapes []) :
      Stands q closing q.escape
        (.broken ("a character to escape after `" ++ q.escape ++ Text.ofString "`") [])
  /-- Without the escape, the closing quote. -/
  | close {rest : Text} (hescape : ¬ q.escape <+: closing ++ rest) :
      Stands q closing (closing ++ rest) (.close rest)
  /-- Without either, a code point for itself. -/
  | plain {c : CodePoint} {rest : Text} (hescape : ¬ q.escape <+: c :: rest)
      (hclosing : ¬ closing <+: c :: rest) :
      Stands q closing (c :: rest) (.content [c] rest)
  /-- The end of the text without either is a mistake. -/
  | unclosed (hescape : ¬ q.escape <+: []) (hclosing : ¬ closing <+: []) :
      Stands q closing [] (.broken ("closing quote `" ++ closing ++ Text.ofString "`") [])

theorem firstFit_eq_none_iff {table : List (Text × Text)} {text : Text} :
    firstFit table text = none ↔ NoneFits table text := by
  simp only [firstFit, NoneFits, List.findSome?_eq_none_iff, Option.map_eq_none_iff,
    Text.strip?_eq_none_iff]

theorem firstFit_eq_some_iff {table : List (Text × Text)} {text meaning rest : Text} :
    firstFit table text = some (meaning, rest) ↔
      ∃ start, FirstFits table text start meaning ∧ start ++ rest = text := by
  simp only [firstFit, List.findSome?_eq_some_iff, Option.map_eq_none_iff,
    Text.strip?_eq_none_iff]
  constructor
  · rintro ⟨before, ⟨start, meaning'⟩, after, htable, hfit, hbefore⟩
    obtain ⟨rest', hstrip, heq⟩ := Option.map_eq_some_iff.mp hfit
    cases heq
    have htext := (Text.strip?_eq_some_iff.mp hstrip).symm
    exact ⟨start, ⟨⟨rest, htext⟩, before, after, htable, hbefore⟩, htext⟩
  · rintro ⟨start, ⟨_, before, after, htable, hbefore⟩, rfl⟩
    refine ⟨before, (start, meaning), after, htable, ?_, hbefore⟩
    rw [Text.strip?_append]
    rfl

/-- The first pair that fits is one only. -/
theorem FirstFits.firstFit_eq {table : List (Text × Text)} {start meaning rest : Text}
    (h : FirstFits table (start ++ rest) start meaning) :
    firstFit table (start ++ rest) = some (meaning, rest) :=
  firstFit_eq_some_iff.mpr ⟨start, h, rfl⟩

theorem take_of_isCode {digits : Text} (rest : Text) {c : CodePoint}
    (h : IsCode digits c) :
    (digits ++ rest).take 4 = digits ∧ (digits ++ rest).drop 4 = rest := by
  obtain ⟨hlength, _⟩ := h
  rw [← hlength]
  exact ⟨List.take_left, List.drop_left⟩

theorem IsCode.eq_ofNat {digits : Text} {c : CodePoint} (h : IsCode digits c) :
    .ofNat (Numeral.value .hexadecimal digits) = c := by
  obtain ⟨_, hvalue⟩ := Numeral.denotes_iff.mp h.2
  rw [← hvalue, CodePoint.ofNat, dif_pos c.value_lt]

/-- Four hexadecimal digits are always the number of a code point. -/
theorem exists_isCode {digits : Text} (hlength : digits.length = 4)
    (hdigits : ∀ c ∈ digits, Radix.hexadecimal.hasDigit c) : ∃ c, IsCode digits c := by
  have hlt := Numeral.value_lt hdigits
  rw [hlength] at hlt
  have hbound : Radix.hexadecimal.base ^ 4 < 0x110000 := by decide
  have hvalue : Numeral.value .hexadecimal digits < 0x110000 := by omega
  refine ⟨⟨Numeral.value .hexadecimal digits, hvalue⟩, hlength, ?_⟩
  exact Numeral.denotes_iff.mpr ⟨hdigits, rfl⟩

theorem hasCode_iff {text : Text} :
    ((text.take 4).length = 4 && (text.take 4).all Radix.hexadecimal.hasDigit) = true ↔
      ∃ digits c, IsCode digits c ∧ digits <+: text := by
  simp only [Bool.and_eq_true, decide_eq_true_eq, List.all_eq_true]
  constructor
  · rintro ⟨hlength, hdigits⟩
    obtain ⟨c, hcode⟩ := exists_isCode hlength hdigits
    exact ⟨text.take 4, c, hcode, List.take_prefix 4 text⟩
  · rintro ⟨digits, c, hcode, rest, rfl⟩
    rw [(take_of_isCode rest hcode).1]
    exact ⟨hcode.1, (Numeral.denotes_iff.mp hcode.2).1⟩

theorem item_escape_append (q : Quotation) (closing text : Text) :
    q.item closing (q.escape ++ text) = q.itemAfterEscape text := by
  simp only [item, Text.strip?_append]

/-- What stands at a place is what is read there. -/
theorem item_of_stands {q : Quotation} {closing text : Text} {it : Item}
    (h : q.Stands closing text it) : q.item closing text = it := by
  cases h with
  | sequence hfirst =>
      rw [item_escape_append]
      simp only [itemAfterEscape, hfirst.firstFit_eq]
  | @code digits rest c hnone hcode =>
      have hfit := firstFit_eq_none_iff.mpr hnone
      have hhas := hasCode_iff.mpr ⟨digits, c, hcode, List.prefix_append digits rest⟩
      obtain ⟨htake, hdrop⟩ := take_of_isCode rest hcode
      rw [item_escape_append]
      simp only [itemAfterEscape, hfit, if_true]
      rw [if_pos hhas, htake, hdrop, hcode.eq_ofNat]
  | escaped hnone hc =>
      have hfit := firstFit_eq_none_iff.mpr hnone
      rw [item_escape_append]
      simp only [itemAfterEscape, hfit, if_neg hc]
  | noCode hnone hcode =>
      have hfit := firstFit_eq_none_iff.mpr hnone
      have hhas := mt hasCode_iff.mp fun ⟨digits, c, hc, hstart⟩ => hcode digits c hc hstart
      rw [item_escape_append]
      simp only [itemAfterEscape, hfit, if_true, if_neg hhas]
  | nothing hnone =>
      have hfit := firstFit_eq_none_iff.mpr hnone
      have happend := item_escape_append q closing []
      rw [List.append_nil] at happend
      rw [happend]
      simp only [itemAfterEscape, hfit]
  | close hescape =>
      simp only [item, Text.strip?_eq_none_iff.mpr hescape, Text.strip?_append]
  | plain hescape hclosing =>
      simp only [item, Text.strip?_eq_none_iff.mpr hescape,
        Text.strip?_eq_none_iff.mpr hclosing]
  | unclosed hescape hclosing =>
      simp only [item, Text.strip?_eq_none_iff.mpr hescape,
        Text.strip?_eq_none_iff.mpr hclosing, unclosed]

theorem stands_itemAfterEscape (q : Quotation) (closing text : Text) :
    q.Stands closing (q.escape ++ text) (q.itemAfterEscape text) := by
  unfold itemAfterEscape
  split
  · next meaning rest hfit =>
      obtain ⟨start, hfirst, rfl⟩ := firstFit_eq_some_iff.mp hfit
      exact .sequence hfirst
  · next hfit =>
      have hnone := firstFit_eq_none_iff.mp hfit
      split
      · rw [List.append_nil]
        exact .nothing hnone
      · next c rest =>
          by_cases hc : c = .ofChar 'u'
          · subst hc
            rw [if_pos rfl]
            split
            · next hhas =>
                obtain ⟨digits, c, hcode, after, rfl⟩ := hasCode_iff.mp hhas
                obtain ⟨htake, hdrop⟩ := take_of_isCode after hcode
                rw [htake, hdrop, hcode.eq_ofNat]
                exact .code hnone hcode
            · next hhas =>
                refine .noCode hnone fun digits c hcode hstart => ?_
                exact hhas (hasCode_iff.mpr ⟨digits, c, hcode, hstart⟩)
          · rw [if_neg hc]
            exact .escaped hnone hc

/-- What is read at a place stands there. -/
theorem stands_item (q : Quotation) (closing text : Text) :
    q.Stands closing text (q.item closing text) := by
  unfold item
  split
  · next rest hstrip =>
      rw [Text.strip?_eq_some_iff.mp hstrip]
      exact q.stands_itemAfterEscape closing rest
  · next hstrip =>
      have hescape := Text.strip?_eq_none_iff.mp hstrip
      split
      · next rest hclose =>
          obtain rfl := Text.strip?_eq_some_iff.mp hclose
          exact .close hescape
      · next hclose =>
          have hclosing := Text.strip?_eq_none_iff.mp hclose
          split
          · exact .unclosed hescape hclosing
          · exact .plain hescape hclosing

/-- The texts of items, each given with its meaning. -/
def spelled (items : List (Text × Text)) : Text := (items.map Prod.fst).flatten

/-- The meanings of items, each given after its text. -/
def meant (items : List (Text × Text)) : Text := (items.map Prod.snd).flatten

/-- Items of the contents, one after another, up to where `last` is left. -/
inductive Items (q : Quotation) (closing last : Text) : List (Text × Text) → Prop
  | nil : Items q closing last []
  | cons {spelling meaning : Text} {items : List (Text × Text)}
      (hfirst : q.Stands closing (spelling ++ (spelled items ++ last))
        (.content meaning (spelled items ++ last)))
      (hitems : Items q closing last items) :
      Items q closing last ((spelling, meaning) :: items)

@[simp] theorem spelled_cons (spelling meaning : Text) (items : List (Text × Text)) :
    spelled ((spelling, meaning) :: items) = spelling ++ spelled items :=
  rfl

@[simp] theorem meant_cons (spelling meaning : Text) (items : List (Text × Text)) :
    meant ((spelling, meaning) :: items) = meaning ++ meant items :=
  rfl

/-- No item stands at the beginning of a text. -/
def Stops (q : Quotation) (closing text : Text) : Prop :=
  ∀ meaning rest, ¬ q.Stands closing text (.content meaning rest)

section

variable {q : Quotation} {closing text : Text}

theorem Stands.eq {it it' : Item} (h : q.Stands closing text it)
    (h' : q.Stands closing text it') : it = it' :=
  (item_of_stands h).symm.trans (item_of_stands h')

theorem stops_of_close {rest : Text} (h : q.Stands closing text (.close rest)) :
    q.Stops closing text := by
  intro meaning rest' hcontent
  cases h.eq hcontent

theorem Stands.exists_spelling {meaning rest : Text}
    (h : q.Stands closing text (.content meaning rest)) :
    ∃ spelling, spelling ++ rest = text := by
  have hsuffix := q.suffix_item closing text
  rwa [item_of_stands h] at hsuffix

/-- Items that go on until they stop are the only ones. -/
theorem Items.eq_of_append_eq {items items' : List (Text × Text)} {last last' : Text}
    (hitems : q.Items closing last items) (hitems' : q.Items closing last' items')
    (heq : spelled items ++ last = spelled items' ++ last')
    (hlast : q.Stops closing last) (hlast' : q.Stops closing last') :
    items = items' ∧ last = last' := by
  induction hitems generalizing items' with
  | nil =>
      cases hitems' with
      | nil => exact ⟨rfl, heq⟩
      | cons hfirst _ =>
          rw [spelled_cons, List.append_assoc] at heq
          have hfirst' := heq ▸ hfirst
          exact absurd hfirst' (hlast _ _)
  | cons hfirst _ ih =>
      rw [spelled_cons, List.append_assoc] at heq
      cases hitems' with
      | nil =>
          have hfirst' := heq ▸ hfirst
          exact absurd hfirst' (hlast' _ _)
      | cons hfirst' hrest' =>
          rw [spelled_cons, List.append_assoc] at heq
          have hsame := (heq ▸ hfirst).eq hfirst'
          simp only [Item.content.injEq] at hsame
          obtain ⟨rfl, hrest⟩ := hsame
          rw [hrest] at heq
          obtain rfl := List.append_cancel_right heq
          obtain ⟨rfl, hlasts⟩ := ih hrest' hrest
          exact ⟨rfl, hlasts⟩

/-- If each item takes something of the text, then items stop. -/
theorem exists_items (hq : q.Progresses) (closing text : Text) :
    ∃ items last, spelled items ++ last = text ∧
      q.Items closing last items ∧ q.Stops closing last := by
  induction hn : text.length using Nat.strong_induction_on generalizing text with
  | _ n ih =>
      by_cases hstops : q.Stops closing text
      · exact ⟨[], text, rfl, .nil, hstops⟩
      · simp only [Stops, not_forall, not_not] at hstops
        obtain ⟨meaning, rest, hfirst⟩ := hstops
        have hlt := length_lt_of_item hq (item_of_stands hfirst)
        obtain ⟨items, last, rfl, hitems, hlast⟩ := ih rest.length (by omega) rest rfl
        obtain ⟨spelling, rfl⟩ := hfirst.exists_spelling
        refine ⟨(spelling, meaning) :: items, last, ?_, .cons hfirst hitems, hlast⟩
        rw [spelled_cons, List.append_assoc]

theorem prepend_nil (c : Contents) : c.prepend [] = c := by
  cases c <;> rfl

theorem prepend_append (front back : Text) (c : Contents) :
    c.prepend (front ++ back) = (c.prepend back).prepend front := by
  cases c with
  | closed content rest => exact congrArg (Contents.closed · rest) (List.append_assoc _ _ _)
  | broken expected rest => rfl

/-- Scanning passes over items, one in each iteration, and goes on where they are
left. -/
theorem scan_items {items : List (Text × Text)} {last : Text}
    (hitems : q.Items closing last items) (bound : Nat) :
    q.scan closing (items.length + bound) (spelled items ++ last) =
      (q.scan closing bound last).map (.prepend (meant items)) := by
  induction hitems with
  | nil =>
      have hid : Contents.prepend (meant []) = id := funext prepend_nil
      rw [hid, Except.map_id, List.length_nil, Nat.zero_add]
      rfl
  | @cons spelling meaning items hfirst _ ih =>
      rw [spelled_cons, List.append_assoc, List.length_cons, Nat.succ_add]
      simp only [scan, item_of_stands hfirst, ih, meant_cons]
      rw [funext (prepend_append meaning (meant items))]
      cases q.scan closing bound last <;> rfl

/-- If each item takes something of the text, then there are no more items than code
points. -/
theorem Items.length_le (hq : q.Progresses) {items : List (Text × Text)} {last : Text}
    (hitems : q.Items closing last items) : items.length ≤ (spelled items).length := by
  induction hitems with
  | nil => exact Nat.zero_le _
  | cons hfirst _ ih =>
      have hlt := length_lt_of_item hq (item_of_stands hfirst)
      simp only [spelled_cons, List.length_append, List.length_cons] at hlt ⊢
      omega

end

/-- A division of a text that is read as a quoted string: the first opening quote that
fits, its closing quote, and items of the contents. -/
structure Division (q : Quotation) (input : Text) where
  opening : Text
  closing : Text
  items : List (Text × Text)
  /-- What is left where the items stop. -/
  last : Text
  append_eq : opening ++ (spelled items ++ last) = input
  firstFits : FirstFits q.quotes input opening closing
  isItems : q.Items closing last items

/-- What a quoted string is to a text. -/
inductive Reads (q : Quotation) (input : Text) : Outcome Reply → Prop
  /-- A string is what its items mean. -/
  | closed (d : Division q input) {rest : Text}
      (hclose : q.Stands d.closing d.last (.close rest)) :
      Reads q input (.ok (.success (.text (meant d.items)) rest))
  /-- A mistake is reported where it is. -/
  | broken (d : Division q input) {expected rest : Text}
      (hbroken : q.Stands d.closing d.last (.broken expected rest)) :
      Reads q input (.ok (.failure expected rest))
  /-- Without an opening quote, the failure is at the beginning. -/
  | unopened (hnone : NoneFits q.quotes input) :
      Reads q input (.ok (.failure "quoted string" input))

namespace Division

variable {q : Quotation} {input : Text}

theorem firstFit_eq (d : Division q input) :
    firstFit q.quotes input = some (d.closing, spelled d.items ++ d.last) :=
  firstFit_eq_some_iff.mpr ⟨d.opening, d.firstFits, d.append_eq⟩

/-- A text divides up to where items stop in one way only. -/
theorem eq_of_stops {d d' : Division q input} (hd : q.Stops d.closing d.last)
    (hd' : q.Stops d'.closing d'.last) : d = d' := by
  have hfits := d.firstFit_eq.symm.trans d'.firstFit_eq
  simp only [Option.some.injEq, Prod.mk.injEq] at hfits
  obtain ⟨hclosing, hcontents⟩ := hfits
  have hopening : d.opening = d'.opening := by
    apply List.append_cancel_right
    rw [d.append_eq, hcontents, d'.append_eq]
  have hitems' := d'.isItems
  rw [← hclosing] at hitems' hd'
  obtain ⟨hitems, hlast⟩ := d.isItems.eq_of_append_eq hitems' hcontents hd hd'
  cases d
  cases d'
  subst hopening hclosing hitems hlast
  rfl

/-- What is read after the items of a division decides what is read. -/
theorem exists_parse_eq (hq : q.Progresses) (d : Division q input) :
    ∃ bound, q.parse input = (q.scan d.closing (bound + 1) d.last).map fun contents =>
      (contents.prepend (meant d.items)).reply := by
  have hle : d.items.length ≤ (spelled d.items ++ d.last).length := by
    have hlength := d.isItems.length_le hq
    rw [List.length_append]
    omega
  obtain ⟨bound, hbound⟩ := Nat.exists_eq_add_of_le hle
  refine ⟨bound, ?_⟩
  have hscan := scan_items d.isItems (bound + 1)
  simp only [parse, d.firstFit_eq, hbound, Nat.add_assoc, hscan]
  cases q.scan d.closing (bound + 1) d.last <;> rfl

theorem exists_reads (d : Division q input) (hd : q.Stops d.closing d.last) :
    ∃ outcome, Reads q input outcome := by
  have hstands := q.stands_item d.closing d.last
  cases hitem : q.item d.closing d.last with
  | content meaning rest => exact absurd (hitem ▸ hstands) (hd meaning rest)
  | close rest => exact ⟨_, .closed d (hitem ▸ hstands)⟩
  | broken expected rest => exact ⟨_, .broken d (hitem ▸ hstands)⟩

end Division

theorem parse_of_noneFits {q : Quotation} {input : Text} (h : NoneFits q.quotes input) :
    q.parse input = .ok (.failure "quoted string" input) := by
  simp only [parse, firstFit_eq_none_iff.mpr h]

/-- What is read is what the grammar of quoted strings says. -/
theorem outcome_of_reads {q : Quotation} (hq : q.Progresses) {input : Text}
    {outcome : Outcome Reply} (h : Reads q input outcome) : q.parse input = outcome := by
  cases h with
  | @closed d rest hclose =>
      obtain ⟨bound, hparse⟩ := d.exists_parse_eq hq
      have hscan : q.scan d.closing (bound + 1) d.last = .ok (.closed [] rest) := by
        simp only [scan, item_of_stands hclose]
      have hmeant : meant d.items ++ [] = meant d.items := List.append_nil _
      rw [hparse, hscan]
      simp only [Except.map, Contents.prepend, Contents.reply, hmeant]
  | broken d hbroken =>
      obtain ⟨bound, hparse⟩ := d.exists_parse_eq hq
      have hscan := item_of_stands hbroken
      rw [hparse]
      simp only [scan, hscan]
      rfl
  | unopened hnone => exact parse_of_noneFits hnone

/-- A quoted string is always something to a text. -/
theorem exists_reads {q : Quotation} (hq : q.Progresses) (input : Text) :
    ∃ outcome, Reads q input outcome := by
  cases hfit : firstFit q.quotes input with
  | none => exact ⟨_, .unopened (firstFit_eq_none_iff.mp hfit)⟩
  | some found =>
      obtain ⟨closing, contents⟩ := found
      obtain ⟨opening, hfirst, happend⟩ := firstFit_eq_some_iff.mp hfit
      obtain ⟨items, last, rfl, hitems, hlast⟩ := exists_items hq closing contents
      let d : Division q input := ⟨opening, closing, items, last, happend, hfirst, hitems⟩
      exact d.exists_reads hlast

/-- The way to write strings with these opening quotes, each with its closing one. -/
def ofQuotes (start finish : List Text) (escape : Text) (escapes : List (Text × Text)) :
    Quotation where
  quotes := start.zip finish
  escape := escape
  escapes := escapes

theorem quoted_eq {start finish : List Text} (hlength : start.length = finish.length)
    (escape : Text) (escapes : List (Text × Text)) :
    Parser.quoted start finish escape escapes =
      .ok (.leaf (.quoted (ofQuotes start finish escape escapes))) := by
  simp only [Parser.quoted, pairQuotes, if_pos hlength]
  rfl

theorem outcome_run_quoted (g : Grammar) (s : Settings) (limit : Nat) (q : Quotation)
    (input : Text) : (g.run s limit (.leaf (.quoted q)) input).outcome = q.parse input :=
  rfl

/-- **Quoted strings.**  For opening quotes with as many closing ones and an escape
that is not empty there is a parser, and what it answers to a text is what a quoted
string is to the text.  The division of the text that ends with the closing quote is
the only one. -/
theorem reads_run_iff {start finish : List Text} (hlength : start.length = finish.length)
    {escape : Text} (hescape : escape ≠ []) (escapes : List (Text × Text)) :
    ∃ p, Parser.quoted start finish escape escapes = .ok p ∧
      (∀ (g : Grammar) (s : Settings) (limit : Nat) (input : Text)
        (outcome : Outcome Reply),
        (g.run s limit p input).outcome = outcome ↔
          (ofQuotes start finish escape escapes).Reads input outcome) ∧
      ∀ (input : Text) (d d' : (ofQuotes start finish escape escapes).Division input)
        (rest rest' : Text),
        (ofQuotes start finish escape escapes).Stands d.closing d.last (.close rest) →
        (ofQuotes start finish escape escapes).Stands d'.closing d'.last (.close rest') →
          d = d' ∧ rest = rest' := by
  have hq : (ofQuotes start finish escape escapes).Progresses := .inl hescape
  refine ⟨_, quoted_eq hlength escape escapes, ?_, ?_⟩
  · intro g s limit input outcome
    rw [outcome_run_quoted]
    constructor
    · rintro rfl
      obtain ⟨outcome, hreads⟩ := exists_reads hq input
      rwa [outcome_of_reads hq hreads]
    · exact outcome_of_reads hq
  · intro input d d' rest rest' hclose hclose'
    obtain rfl := Division.eq_of_stops (stops_of_close hclose) (stops_of_close hclose')
    cases hclose.eq hclose'
    exact ⟨rfl, rfl⟩

/-- Three quotes, or one. -/
def threeOrOne : List Text := ["\"\"\"", "\""]

/-- Two sequences of which one begins the other. -/
def nested : List (Text × Text) := [("n", "\n"), ("nn", "-")]

/-- Between three quotes a single one is a part of the string, and of two sequences
that fit after the escape the first is taken. -/
theorem threeOrOne_reads :
    ∃ p, Parser.quoted threeOrOne threeOrOne backslash nested = .ok p ∧
      (∀ (g : Grammar) (s : Settings) (limit : Nat),
        (g.run s limit p "\"\"\"a\"\\nn\\u0041\"\"\"z").outcome =
          .ok (.success (.text "a\"\nnA") "z")) ∧
      (ofQuotes threeOrOne threeOrOne backslash nested).Reads
        "\"\"\"a\"\\nn\\u0041\"\"\"z" (.ok (.success (.text "a\"\nnA") "z")) := by
  have hlength : threeOrOne.length = threeOrOne.length := rfl
  obtain ⟨p, hp, hreads, _⟩ :=
    reads_run_iff hlength (by decide : backslash ≠ []) nested
  rw [quoted_eq hlength] at hp
  cases hp
  have hrun : ∀ (g : Grammar) (s : Settings) (limit : Nat),
      (g.run s limit (.leaf (.quoted (ofQuotes threeOrOne threeOrOne backslash nested)))
        "\"\"\"a\"\\nn\\u0041\"\"\"z").outcome =
          .ok (.success (.text "a\"\nnA") "z") := fun g s limit => rfl
  exact ⟨_, quoted_eq hlength _ _, hrun, (hreads {} {} 0 _ _).mp (hrun {} {} 0)⟩

end Quotation

end ParserAlgebra
