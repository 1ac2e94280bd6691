import ParserAlgebra.Proofs.Quotation
/-!
# Writing quoted strings

Any text can be written as a quoted string: put the escape before each closing quote
and each escape of it.  The text may itself look escaped; reading gives it back as it
was (`Quotation.run_encode`).

Each code point of the text is written as one item (`Quotation.stands_spell`).  Two
things could go wrong at an item, that the code point begins a number after the escape
and that a sequence of the table is taken for it.  `Quotation.MeansItself` rules out
both.
-/

namespace ParserAlgebra

namespace Quotation

/-- A code point as it is written in a string. -/
def spell (quote mark c : CodePoint) : Text :=
  if c = quote ∨ c = mark then [mark, c] else [c]

/-- A text as it is written in a string: each closing quote and each escape has the
escape before it. -/
def encode (quote mark : CodePoint) (text : Text) : Text :=
  text.flatMap (spell quote mark)

/-- After the escape the code point begins neither a number nor a sequence of the table,
and no sequence is empty. -/
def MeansItself (escapes : List (Text × Text)) (c : CodePoint) : Prop :=
  c ≠ .ofChar 'u' ∧ ∀ entry ∈ escapes, entry.1 ≠ [] ∧ entry.1.head? ≠ some c

instance (escapes : List (Text × Text)) (c : CodePoint) : Decidable (MeansItself escapes c) :=
  inferInstanceAs (Decidable (_ ∧ _))

/-- The items of a written text, one for each code point. -/
def encodedItems (quote mark : CodePoint) (text : Text) : List (Text × Text) :=
  text.map fun c => (spell quote mark c, [c])

theorem spelled_encodedItems (quote mark : CodePoint) (text : Text) :
    spelled (encodedItems quote mark text) = encode quote mark text := by
  induction text with
  | nil => rfl
  | cons c text ih => exact congrArg (spell quote mark c ++ ·) ih

theorem meant_encodedItems (quote mark : CodePoint) (text : Text) :
    meant (encodedItems quote mark text) = text := by
  induction text with
  | nil => rfl
  | cons c text ih => exact congrArg (c :: ·) ih

theorem not_begins_singleton {c d : CodePoint} (h : c ≠ d) (rest : Text) :
    ¬ [d] <+: c :: rest := by
  intro hstart
  obtain ⟨rfl, _⟩ := List.cons_prefix_cons.mp hstart
  exact h rfl

theorem MeansItself.noneFits {escapes : List (Text × Text)} {c : CodePoint}
    (h : MeansItself escapes c) (rest : Text) : NoneFits escapes (c :: rest) := by
  rintro ⟨sequence, meaning⟩ hentry hstart
  obtain ⟨hne, hhead⟩ := h.2 _ hentry
  cases sequence with
  | nil => exact hne rfl
  | cons d sequence =>
      obtain ⟨rfl, _⟩ := List.cons_prefix_cons.mp hstart
      exact hhead rfl

section

variable {q : Quotation} {quote mark : CodePoint}

theorem MeansItself.stands {c : CodePoint} (h : MeansItself q.escapes c)
    (closing rest : Text) :
    q.Stands closing (q.escape ++ c :: rest) (.content [c] rest) :=
  .escaped (h.noneFits rest) h.1

/-- What is written for a code point is an item that means the code point. -/
theorem stands_spell (hescape : q.escape = [mark]) (hquote : MeansItself q.escapes quote)
    (hmark : MeansItself q.escapes mark) (c : CodePoint) (rest : Text) :
    q.Stands [quote] (spell quote mark c ++ rest) (.content [c] rest) := by
  by_cases hc : c = quote ∨ c = mark
  · have hself : MeansItself q.escapes c := by
      rcases hc with rfl | rfl
      · exact hquote
      · exact hmark
    have hstands := hself.stands [quote] rest
    rw [hescape] at hstands
    rw [spell, if_pos hc]
    exact hstands
  · have hne : c ≠ quote := fun h => hc (.inl h)
    have hne' : c ≠ mark := fun h => hc (.inr h)
    rw [spell, if_neg hc]
    refine .plain ?_ (not_begins_singleton hne rest)
    rw [hescape]
    exact not_begins_singleton hne' rest

/-- So a written text is one item after another, whatever comes after it. -/
theorem isItems_encodedItems (hescape : q.escape = [mark])
    (hquote : MeansItself q.escapes quote) (hmark : MeansItself q.escapes mark)
    (text last : Text) : q.Items [quote] last (encodedItems quote mark text) := by
  induction text with
  | nil => exact .nil
  | cons c text ih =>
      have hfirst := stands_spell hescape hquote hmark c
        (spelled (encodedItems quote mark text) ++ last)
      exact .cons hfirst ih

/-- The closing quote that is not escaped closes the string. -/
theorem stands_quote (hescape : q.escape = [mark]) (hne : quote ≠ mark) (rest : Text) :
    q.Stands [quote] (quote :: rest) (.close rest) := by
  have hclose : ¬ q.escape <+: [quote] ++ rest := by
    rw [hescape]
    exact not_begins_singleton hne rest
  exact .close hclose

end

/-- **Escaping.**  A text with the escape before each of its closing quotes and escapes
is read back as it was, up to the closing quote that follows it and no further. -/
theorem run_encode (opening : Text) {quote mark : CodePoint} (hne : quote ≠ mark)
    {escapes : List (Text × Text)} (hquote : MeansItself escapes quote)
    (hmark : MeansItself escapes mark) :
    ∃ p, Parser.quoted [opening] [[quote]] [mark] escapes = .ok p ∧
      ∀ (g : Grammar) (s : Settings) (limit : Nat) (text rest : Text),
        (g.run s limit p (opening ++ (encode quote mark text ++ quote :: rest))).outcome =
          .ok (.success (.text text) rest) := by
  let q : Quotation := ofQuotes [opening] [[quote]] [mark] escapes
  have hlength : [opening].length = [[quote]].length := rfl
  refine ⟨.leaf (.quoted q), quoted_eq hlength [mark] escapes, ?_⟩
  intro g s limit text rest
  rw [outcome_run_quoted]
  have hq : q.Progresses := .inl (List.cons_ne_nil mark [])
  have hfirst : FirstFits q.quotes (opening ++ (encode quote mark text ++ quote :: rest))
      opening [quote] :=
    ⟨List.prefix_append _ _, [], [], rfl, fun _ hentry => absurd hentry List.not_mem_nil⟩
  let d : Division q (opening ++ (encode quote mark text ++ quote :: rest)) :=
    { opening := opening
      closing := [quote]
      items := encodedItems quote mark text
      last := quote :: rest
      append_eq := by rw [spelled_encodedItems]
      firstFits := hfirst
      isItems := isItems_encodedItems rfl hquote hmark text (quote :: rest) }
  have hreads : q.Reads _ (.ok (.success (.text (meant d.items)) rest)) :=
    .closed d (stands_quote rfl hne rest)
  rw [outcome_of_reads hq hreads, meant_encodedItems]

/-- A text that already looks written: an escaped quote, a number, a line break. -/
def misleading : Text := "\\\"\\u0041\\n\"\n"

/-- With the table of control characters, a double quote and a backslash mean
themselves. -/
theorem run_encode_misleading :
    ∃ p, Parser.quoted ["<"] ["\""] backslash standardEscapes = .ok p ∧
      ∀ (g : Grammar) (s : Settings) (limit : Nat),
        (g.run s limit p "<\\\\\\\"\\\\u0041\\\\n\\\"\n\"z\"").outcome =
          .ok (.success (.text misleading) "z\"") := by
  have hne : CodePoint.ofChar '"' ≠ .ofChar '\\' := by decide
  have hquote : MeansItself standardEscapes (.ofChar '"') := by decide
  have hmark : MeansItself standardEscapes (.ofChar '\\') := by decide
  obtain ⟨p, hp, hrun⟩ := run_encode "<" hne hquote hmark
  exact ⟨p, hp, fun g s limit => hrun g s limit misleading "z\""⟩

end Quotation

end ParserAlgebra
