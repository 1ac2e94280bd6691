import Mathlib.Computability.Language
import ParserAlgebra.Regex.Match
/-!
# Matches that are longest

Backtracking gives the first match in an order of preference, which need not be the
longest one.  It is the longest where each choice of the pattern can be told from what
comes next in the text: of two ways the preferred one then matches at least as much as
the other, if it matches at all.

The words that can be matched form a language.  A match of what follows *finds* a
language if it stops after the longest word of it that begins the text, and fails where
none does (`Regex.Finds`).  Each kind of pattern turns what its continuation finds into
what it finds itself:

* `Regex.finds_one`, `Regex.finds_plus`: one code point of a set, or as many as
  possible.
* `Regex.finds_alt`, `Regex.finds_option`: the first of two ways, if it is to be
  preferred (`Text.Prefers`).

Which of two languages is to be preferred follows from the first code points of their
words, or of what comes after a common beginning.
-/

namespace ParserAlgebra

namespace Text

/-- The longest word of a language that begins a text. -/
structure IsLongest (K : Language CodePoint) (text word : Text) : Prop where
  mem : word ∈ K
  begins : word <+: text
  length_le : ∀ word' ∈ K, word' <+: text → word'.length ≤ word.length

/-- The words of one code point with a property. -/
def singles (p : CodePoint → Prop) : Language CodePoint := {word | ∃ c, p c ∧ word = [c]}

/-- The words of code points with a property that are not empty. -/
def runs (p : CodePoint → Prop) : Language CodePoint := {word | word ≠ [] ∧ ∀ c ∈ word, p c}

/-- Every word begins with a code point with the property. -/
def First (p : CodePoint → Prop) (K : Language CodePoint) : Prop :=
  ∀ word ∈ K, ∃ c rest, word = c :: rest ∧ p c

/-- No word begins with a code point with the property. -/
def NotFirst (p : CodePoint → Prop) (K : Language CodePoint) : Prop :=
  ∀ word ∈ K, ∀ c ∈ word.head?, ¬ p c

/-- Where a word of the first language begins a text, no longer word of the second
does. -/
def Prefers (K L : Language CodePoint) : Prop :=
  ∀ text, ∀ word ∈ K, ∀ word' ∈ L, word <+: text → word' <+: text →
    word'.length ≤ word.length

section

variable {K L M : Language CodePoint} {p q : CodePoint → Prop}

/-- The longest word is one only. -/
theorem IsLongest.eq {text word word' : Text} (h : IsLongest K text word)
    (h' : IsLongest K text word') : word = word' := by
  have hle := h'.length_le word h.mem h.begins
  have hle' := h.length_le word' h'.mem h'.begins
  have hbegins := List.prefix_of_prefix_length_le h.begins h'.begins hle
  exact hbegins.eq_of_length (Nat.le_antisymm hle hle')

theorem cons_mem_singles_mul {c : CodePoint} {word : Text} (hc : p c) (hword : word ∈ K) :
    c :: word ∈ singles p * K := by
  have hsingle : [c] ∈ singles p := ⟨c, hc, rfl⟩
  exact Language.append_mem_mul hsingle hword

theorem exists_of_mem_singles_mul {word : Text} (h : word ∈ singles p * K) :
    ∃ c, p c ∧ ∃ word' ∈ K, word = c :: word' := by
  obtain ⟨_, ⟨c, hc, rfl⟩, word', hword', rfl⟩ := Language.mem_mul.mp h
  exact ⟨c, hc, word', hword', rfl⟩

theorem mem_kstar_singles_iff {word : Text} :
    word ∈ KStar.kstar (singles p) ↔ ∀ c ∈ word, p c := by
  rw [Language.mem_kstar]
  constructor
  · intro ⟨parts, hword, hparts⟩ c hc
    rw [hword] at hc
    obtain ⟨part, hpart, hmem⟩ := List.mem_flatten.mp hc
    obtain ⟨d, hd, rfl⟩ := hparts part hpart
    rwa [List.mem_singleton.mp hmem]
  · intro h
    refine ⟨word.map fun c => [c], ?_, ?_⟩
    · induction word with
      | nil => rfl
      | cons c word ih =>
          have hrest := ih fun d hd => h d (List.mem_cons_of_mem c hd)
          exact congrArg (c :: ·) hrest
    · intro part hpart
      obtain ⟨c, hc, rfl⟩ := List.mem_map.mp hpart
      exact ⟨c, h c hc, rfl⟩

theorem singles_mul_kstar : singles p * KStar.kstar (singles p) = runs p := by
  ext word
  constructor
  · intro h
    obtain ⟨c, hc, word', hword', rfl⟩ := exists_of_mem_singles_mul h
    refine ⟨List.cons_ne_nil c word', ?_⟩
    exact List.forall_mem_cons.mpr ⟨hc, mem_kstar_singles_iff.mp hword'⟩
  · intro ⟨hne, hall⟩
    cases word with
    | nil => exact absurd rfl hne
    | cons c word =>
        obtain ⟨hc, hword⟩ := List.forall_mem_cons.mp hall
        exact cons_mem_singles_mul hc (mem_kstar_singles_iff.mpr hword)

theorem first_singles_mul (p : CodePoint → Prop) (K : Language CodePoint) :
    First p (singles p * K) := by
  intro word hword
  obtain ⟨c, hc, word', -, rfl⟩ := exists_of_mem_singles_mul hword
  exact ⟨c, word', rfl, hc⟩

theorem first_runs_mul (p : CodePoint → Prop) (K : Language CodePoint) :
    First p (runs p * K) := by
  rw [← singles_mul_kstar, mul_assoc]
  exact first_singles_mul p _

theorem First.mono (h : First p K) (hpq : ∀ c, p c → q c) : First q K := by
  intro word hword
  obtain ⟨c, rest, rfl, hc⟩ := h word hword
  exact ⟨c, rest, rfl, hpq c hc⟩

theorem First.notFirst (h : First p K) (hpq : ∀ c, p c → ¬ q c) : NotFirst q K := by
  intro word hword c hc
  obtain ⟨d, rest, rfl, hd⟩ := h word hword
  cases hc
  exact hpq _ hd

theorem notFirst_one (p : CodePoint → Prop) : NotFirst p 1 := by
  intro word hword c hc
  rw [(Language.mem_one word).mp hword] at hc
  cases hc

theorem NotFirst.add (hK : NotFirst p K) (hL : NotFirst p L) : NotFirst p (K + L) := by
  intro word hword
  rcases hword with hword | hword
  · exact hK word hword
  · exact hL word hword

theorem Prefers.add_right (hL : Prefers K L) (hM : Prefers K M) : Prefers K (L + M) := by
  intro text word hword word' hword'
  rcases hword' with hword' | hword'
  · exact hL text word hword word' hword'
  · exact hM text word hword word' hword'

/-- A word that begins with no code point of the first language begins the same text
only if it is empty. -/
theorem prefers_of_first (hK : First p K) (hL : NotFirst p L) : Prefers K L := by
  intro text word hword word' hword' ⟨tail, htext⟩ hbegins
  obtain ⟨c, rest, rfl, hc⟩ := hK word hword
  cases word' with
  | nil => exact Nat.zero_le _
  | cons d rest' =>
      rw [← htext] at hbegins
      obtain ⟨rfl, -⟩ := List.cons_prefix_cons.mp hbegins
      exact absurd hc (hL _ hword' _ rfl)

/-- After one code point each, the same language is to be preferred. -/
theorem Prefers.singles_mul (h : Prefers K L) : Prefers (singles p * K) (singles q * L) := by
  intro text word hword word' hword' ⟨tail, htext⟩ hbegins
  obtain ⟨c, -, rest, hrest, rfl⟩ := exists_of_mem_singles_mul hword
  obtain ⟨d, -, rest', hrest', rfl⟩ := exists_of_mem_singles_mul hword'
  rw [← htext] at hbegins
  obtain ⟨rfl, hbegins'⟩ := List.cons_prefix_cons.mp hbegins
  have hle := h _ rest hrest rest' hrest' (List.prefix_append rest tail) hbegins'
  exact Nat.succ_le_succ hle

/-- A run of code points that is followed by another one is one only. -/
theorem eq_of_append_cons_eq {front front' rest rest' : Text} {c c' : CodePoint}
    (hfront : ∀ d ∈ front, p d) (hfront' : ∀ d ∈ front', p d) (hc : ¬ p c) (hc' : ¬ p c')
    (h : front ++ c :: rest = front' ++ c' :: rest') : front = front' := by
  rcases List.append_eq_append_iff.mp h with ⟨more, rfl, hmore⟩ | ⟨more, rfl, hmore⟩
  · cases more with
    | nil => rw [List.append_nil]
    | cons d more =>
        obtain ⟨rfl, -⟩ := List.cons.inj hmore
        exact absurd (hfront' c (List.mem_append_right front List.mem_cons_self)) hc
  · cases more with
    | nil => rw [List.append_nil]
    | cons d more =>
        obtain ⟨rfl, -⟩ := List.cons.inj hmore
        exact absurd (hfront c' (List.mem_append_right front' List.mem_cons_self)) hc'

/-- After a run of code points each, the same language is to be preferred, if what comes
next ends the run. -/
theorem Prefers.runs_mul (h : Prefers K L) {q q' : CodePoint → Prop} (hK : First q K)
    (hL : First q' L) (hq : ∀ c, q c → ¬ p c) (hq' : ∀ c, q' c → ¬ p c) :
    Prefers (runs p * K) (runs p * L) := by
  intro text word hword word' hword' ⟨tail, htext⟩ ⟨tail', htext'⟩
  have heq := htext'.trans htext.symm
  obtain ⟨front, ⟨-, hfront⟩, rest, hrest, rfl⟩ := Language.mem_mul.mp hword
  obtain ⟨front', ⟨-, hfront'⟩, rest', hrest', rfl⟩ := Language.mem_mul.mp hword'
  obtain ⟨c, after, rfl, hc⟩ := hK rest hrest
  obtain ⟨c', after', rfl, hc'⟩ := hL rest' hrest'
  simp only [List.append_assoc, List.cons_append] at heq
  obtain rfl := eq_of_append_cons_eq hfront' hfront (hq' c' hc') (hq c hc) heq
  have hbegins : c' :: after' <+: c :: after ++ tail :=
    ⟨tail', List.append_cancel_left heq⟩
  have hle := h _ _ hrest _ hrest' (List.prefix_append _ tail) hbegins
  simp only [List.length_append]
  omega

end

end Text

namespace Regex

open Text

/-- The state `t` comes after the word, when matching began at `s` and remembered
nothing. -/
structure State.Over (s : State) (word : Text) (t : State) : Prop where
  append_eq : word ++ t.rest = s.rest
  pos_eq : t.pos = s.pos + word.length
  groups_eq : t.groups = s.groups

/-- What is found of a language at a state: the state after its longest word, or
nothing. -/
inductive Found (K : Language CodePoint) (s : State) : Option State → Prop
  | longest {word : Text} {t : State} (hlongest : IsLongest K s.rest word)
      (hover : s.Over word t) : Found K s (some t)
  | nothing (hnone : ∀ word ∈ K, ¬ word <+: s.rest) : Found K s none

/-- At every state, what is found is of the language. -/
def Finds (k : State → Option State) (K : Language CodePoint) : Prop :=
  ∀ s, Found K s (k s)

section

variable {K L : Language CodePoint} {k : State → Option State} {s t : State}
variable {set : CharSet} {p : CodePoint → Prop}

theorem State.Over.cons {c : CodePoint} {word : Text} {u : State} (h : s.Over [c] t)
    (h' : t.Over word u) : s.Over (c :: word) u where
  append_eq := by rw [List.cons_append, h'.append_eq, ← h.append_eq]; rfl
  pos_eq := by
    simp only [h'.pos_eq, h.pos_eq, List.length_cons, List.length_nil]
    omega
  groups_eq := h'.groups_eq.trans h.groups_eq

theorem over_of_step? (h : s.step? set = some t) :
    ∃ c, set.contains c ∧ s.Over [c] t := by
  unfold State.step? at h
  split at h
  · cases h
  · next c rest hrest =>
      split at h
      · next hc =>
          cases h
          exact ⟨c, hc, hrest.symm, rfl, rfl⟩
      · cases h

theorem not_contains_of_step? (h : s.step? set = none) {c : CodePoint} {rest : Text}
    (hrest : s.rest = c :: rest) : ¬ set.contains c := by
  intro hc
  simp [State.step?, hrest, hc] at h

theorem finds_some : Finds some 1 := by
  intro s
  have hlongest : IsLongest 1 s.rest [] := by
    refine ⟨Language.nil_mem_one, List.nil_prefix, ?_⟩
    intro word' hword' _
    rw [(Language.mem_one word').mp hword']
  exact .longest hlongest ⟨rfl, rfl, rfl⟩

/-- The answer of a set is that of its continuation after one code point. -/
theorem found_one (hset : ∀ c, set.contains c ↔ p c)
    (hk : ∀ t, s.step? set = some t → Found K t (k t)) :
    Found (singles p * K) s ((Pattern.one set).run k s) := by
  simp only [Pattern.run]
  cases hstep : s.step? set with
  | none =>
      refine .nothing ?_
      intro word hword ⟨tail, htail⟩
      obtain ⟨c, hc, rest, -, rfl⟩ := exists_of_mem_singles_mul hword
      exact not_contains_of_step? hstep htail.symm ((hset c).mpr hc)
  | some t =>
      obtain ⟨c, hc, hover⟩ := over_of_step? hstep
      have hrest : s.rest = c :: t.rest := hover.append_eq.symm
      rw [Option.bind_some]
      -- a word that begins the text at `s` is `c` and a word that begins it at `t`
      have htail : ∀ word ∈ singles p * K, word <+: s.rest →
          ∃ word' ∈ K, word' <+: t.rest ∧ word = c :: word' := by
        intro word hword hbegins
        obtain ⟨d, -, word', hword', rfl⟩ := exists_of_mem_singles_mul hword
        rw [hrest] at hbegins
        obtain ⟨rfl, hbegins'⟩ := List.cons_prefix_cons.mp hbegins
        exact ⟨word', hword', hbegins', rfl⟩
      generalize hanswer : k t = answer
      have hfound := hk t hstep
      rw [hanswer] at hfound
      cases hfound with
      | @longest word u hlongest hover' =>
          have hcons : IsLongest (singles p * K) s.rest (c :: word) := by
            refine ⟨cons_mem_singles_mul ((hset c).mp hc) hlongest.mem, ?_, ?_⟩
            · rw [hrest]
              exact List.cons_prefix_cons.mpr ⟨rfl, hlongest.begins⟩
            · intro word' hword' hbegins
              obtain ⟨rest, hmem, hbegins', rfl⟩ := htail word' hword' hbegins
              exact Nat.succ_le_succ (hlongest.length_le rest hmem hbegins')
          exact .longest hcons (hover.cons hover')
      | nothing hnone =>
          refine .nothing fun word hword hbegins => ?_
          obtain ⟨rest, hmem, hbegins', rfl⟩ := htail word hword hbegins
          exact hnone rest hmem hbegins'

theorem finds_one (hset : ∀ c, set.contains c ↔ p c) (hk : Finds k K) :
    Finds ((Pattern.one set).run k) (singles p * K) :=
  fun _ => found_one hset fun t _ => hk t

/-- Of two answers in order, the first one counts if its language is to be
preferred. -/
theorem found_orElse {o o' : Option State} (h : Found K s o) (h' : Found L s o')
    (hprefers : Prefers K L) : Found (K + L) s (o.orElse fun _ => o') := by
  cases h with
  | longest hlongest hover =>
      refine .longest ⟨.inl hlongest.mem, hlongest.begins, ?_⟩ hover
      intro word' hword' hbegins
      rcases hword' with hword' | hword'
      · exact hlongest.length_le word' hword' hbegins
      · exact hprefers _ _ hlongest.mem word' hword' hlongest.begins hbegins
  | nothing hnone =>
      rw [Option.orElse_none]
      cases h' with
      | longest hlongest hover =>
          refine .longest ⟨.inr hlongest.mem, hlongest.begins, ?_⟩ hover
          intro word' hword' hbegins
          rcases hword' with hword' | hword'
          · exact absurd hbegins (hnone word' hword')
          · exact hlongest.length_le word' hword' hbegins
      | nothing hnone' =>
          refine .nothing ?_
          intro word hword
          rcases hword with hword | hword
          · exact hnone word hword
          · exact hnone' word hword

theorem finds_alt {a b : Pattern} (ha : Finds (a.run k) K) (hb : Finds (b.run k) L)
    (hprefers : Prefers K L) : Finds ((Pattern.alt a b).run k) (K + L) :=
  fun s => found_orElse (ha s) (hb s) hprefers

/-- An optional pattern is tried once, and then left out. -/
theorem option_run (a : Pattern) (k : State → Option State) (s : State) :
    (Pattern.option a).run k s = (a.run k s).orElse fun _ => k s := by
  have hrest : ∀ t u : State, (if t.pos < u.pos then
      Matcher.upTo a.run true s.rest.length (some 0) k u else k u) = k u := by
    intro t u
    rw [Matcher.upTo_zero_budget, ite_self]
  simp only [Pattern.option, Pattern.run, Matcher.exactly, Matcher.upTo, Option.map_some,
    Nat.sub_zero, if_true, Nat.sub_self, hrest]

theorem finds_option {a : Pattern} (ha : Finds (a.run k) K) (hk : Finds k L)
    (hprefers : Prefers K L) : Finds ((Pattern.option a).run k) (K + L) := by
  intro s
  rw [option_run]
  exact found_orElse (ha s) (hk s) hprefers

/-- As many code points of a set as possible are taken, if what follows begins with none
of them. -/
theorem found_upTo (hset : ∀ c, set.contains c ↔ p c) (hk : Finds k K)
    (hfirst : NotFirst p K) {bound : Nat} (hbound : s.rest.length < bound) :
    Found (KStar.kstar (singles p) * K) s
      (Matcher.upTo (Pattern.one set).run true bound none k s) := by
  have hstar : singles p * (KStar.kstar (singles p) * K) + K =
      KStar.kstar (singles p) * K := by
    conv_rhs => rw [← Language.one_add_self_mul_kstar_eq_kstar, add_mul, one_mul, mul_assoc,
      add_comm]
  induction bound generalizing s with
  | zero => exact absurd hbound (Nat.not_lt_zero _)
  | succ bound ih =>
      rw [← hstar]
      have hprefers : Prefers (singles p * (KStar.kstar (singles p) * K)) K :=
        prefers_of_first (first_singles_mul p _) hfirst
      refine found_orElse (found_one hset fun t hstep => ?_) (hk s) hprefers
      obtain ⟨c, -, hover⟩ := over_of_step? hstep
      have hpos : s.pos < t.pos := by
        rw [hover.pos_eq]
        exact Nat.lt_succ_self _
      have hlength : s.rest.length = t.rest.length + 1 := by
        rw [← hover.append_eq]
        rfl
      rw [if_pos hpos]
      exact ih (by omega)

theorem finds_plus (hset : ∀ c, set.contains c ↔ p c) (hk : Finds k K)
    (hfirst : NotFirst p K) : Finds ((Pattern.plus (.one set)).run k) (runs p * K) := by
  intro s
  rw [← singles_mul_kstar, mul_assoc]
  exact found_one hset fun t _ => found_upTo hset hk hfirst (Nat.lt_succ_self _)

/-- A match is the longest word of the language that its pattern finds. -/
theorem found_match? {r : Regex} (h : Finds (r.pattern.run some) K) (text : Text) :
    (∃ word rest, IsLongest K text word ∧ word ++ rest = text ∧
      r.match? text = some
        { whole := word, groups := List.replicate r.groupCount none, rest }) ∨
    (∀ word ∈ K, ¬ word <+: text) ∧ r.match? text = none := by
  unfold match?
  have hfound := h { rest := text, groups := List.replicate r.groupCount none }
  generalize r.pattern.run some { rest := text, groups := List.replicate r.groupCount none } =
    answer at hfound ⊢
  cases hfound with
  | @longest word t hlongest hover =>
      left
      refine ⟨word, t.rest, hlongest, hover.append_eq, ?_⟩
      have hpos : t.pos = word.length := by rw [hover.pos_eq, Nat.zero_add]
      have htake : text.take word.length = word :=
        (List.prefix_iff_eq_take.mp hlongest.begins).symm
      rw [Option.map_some, hpos, htake, hover.groups_eq]
  | nothing hnone => exact .inr ⟨hnone, rfl⟩

theorem isLongest_of_match? {r : Regex} (h : Finds (r.pattern.run some) K) {text : Text}
    {m : Match} (hmatch : r.match? text = some m) : IsLongest K text m.whole := by
  rcases found_match? h text with ⟨word, rest, hlongest, -, hsome⟩ | ⟨-, hnone⟩
  · rw [hmatch] at hsome
    obtain rfl := Option.some.inj hsome
    exact hlongest
  · rw [hmatch] at hnone
    cases hnone

end

end Regex

end ParserAlgebra
